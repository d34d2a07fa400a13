import EventRelay.Proofs.Event.Concatenation

/-!
# Events inherit the time of the nearest event before them

Whether an event says its time, and which, is decided by its own value alone: a reported time is the
same under every default (`EventTime.resolve_cases`). So the default that is passed along a body
carries the last instant that was reported to the next event that reports one, and before the first
such event it is the caller's (`inherits_of_readAll`).
-/

namespace EventRelay

/-- A time value is usable or not, whatever the default; and only where it is not, the default is of
any account. -/
theorem EventTime.resolve_cases (value : Option Json) :
    (∃ instant, ∀ default, resolve value default = reported instant) ∨
      ∀ default, resolve value default = generated default := by
  unfold resolve
  cases value.bind usable? with
  | some instant => exact .inl ⟨instant, fun _ => rfl⟩
  | none => exact .inr fun _ => rfl

namespace Event

/-- The values that stand one behind the other in a body. -/
def valuesIn (body : Bytes) : List Json :=
  match Json.next? body with
  | .error _ => []
  | .ok none => []
  | .ok (some x) =>
    have := x.shorter
    x.value :: valuesIn x.rest
termination_by body.length

/-- The values describe the events, each of which falls back on the instant of the one before. -/
inductive Describes : Int → List Json → List Event → Prop
  | nil {default : Int} : Describes default [] []
  | cons {default : Int} {v : Json} {e : Event} {vs : List Json} {es : List Event}
    (he : ofJson default v = .ok e) (hes : Describes e.time.instant vs es) :
    Describes default (v :: vs) (e :: es)

/-- Up to position `i`, the event at position `j` is the last one with a time of its own. -/
structure LastReported (es : List Event) (i j : Nat) (e : Event) : Prop where
  le : j ≤ i
  getElem? : es[j]? = some e
  reported : e.time.source = .reported
  none_behind : ∀ k f, j < k → k ≤ i → es[k]? = some f → f.time.source ≠ .reported

variable {default : Int} {body : Bytes} {v : Json} {e : Event} {vs : List Json} {es : List Event}
  {i j : Nat}

theorem describes_of_readAll (h : readAll default body = .ok es) :
    Describes default (valuesIn body) es := by
  fun_induction readAll default body generalizing es with
  | case2 default body hnext =>
    cases h
    rw [valuesIn, hnext]
    exact .nil
  | case5 default body x hnext e he _ es' hes' ih =>
    cases h
    rw [valuesIn, hnext]
    exact .cons he (ih hes')
  | _ => cases h

theorem time_of_ofJson (h : ofJson default v = .ok e) :
    e.time = EventTime.resolve (v.get? "time") default := by
  unfold ofJson at h
  split at h
  · split at h
    · cases h
    · cases h
      rfl
  · cases h

theorem Describes.length_eq (h : Describes default vs es) : es.length = vs.length := by
  induction h with
  | nil => rfl
  | cons _ _ ih => rw [List.length_cons, List.length_cons, ih]

/-- Each event has the time that its own value resolves to under some default. -/
theorem Describes.time_eq (h : Describes default vs es) (he : es[i]? = some e)
    (hv : vs[i]? = some v) : ∃ d, e.time = EventTime.resolve (v.get? "time") d := by
  induction h generalizing i with
  | nil => cases he
  | @cons default _ _ _ _ hfirst _ ih =>
    cases i with
    | zero =>
      cases he
      cases hv
      exact ⟨default, time_of_ofJson hfirst⟩
    | succ i => exact ih he hv

theorem LastReported.cons {first : Event} (h : LastReported es i j e) :
    LastReported (first :: es) (i + 1) (j + 1) e where
  le := Nat.succ_le_succ h.le
  getElem? := h.getElem?
  reported := h.reported
  none_behind := by
    intro k f hjk hki hf
    cases k with
    | zero => cases hjk
    | succ k => exact h.none_behind k f (Nat.lt_of_succ_lt_succ hjk) (Nat.le_of_succ_le_succ hki) hf

/-- The first event is the last with a time of its own if it has one and those behind it do not. -/
theorem LastReported.first (h : e.time.source = .reported)
    (hnone : ∀ k f, k < i → es[k]? = some f → f.time.source ≠ .reported) :
    LastReported (e :: es) i 0 e where
  le := Nat.zero_le i
  getElem? := rfl
  reported := h
  none_behind := by
    intro k f hk hki hf
    cases k with
    | zero => cases hk
    | succ k => exact hnone k f hki hf

/-- The instant of an event is the one last reported, or the default if none was. -/
theorem Describes.instant_eq (h : Describes default vs es) (he : es[i]? = some e) :
    (∃ j f, LastReported es i j f ∧ e.time.instant = f.time.instant) ∨
      (∀ j f, j ≤ i → es[j]? = some f → f.time.source ≠ .reported) ∧
        e.time.instant = default := by
  induction h generalizing i with
  | nil => cases he
  | @cons default v first vs es hfirst _ ih =>
    have hown : first.time.source = .reported ∨
        first.time.source ≠ .reported ∧ first.time.instant = default := by
      rw [time_of_ofJson hfirst]
      rcases EventTime.resolve_cases (v.get? "time") with ⟨instant, hreported⟩ | hgenerated
      · rw [hreported]
        exact .inl rfl
      · rw [hgenerated]
        exact .inr ⟨nofun, rfl⟩
    cases i with
    | zero =>
      obtain rfl := Option.some.inj he
      rcases hown with hreported | ⟨hnone, hinstant⟩
      · exact .inl ⟨0, _, .first hreported fun k f hk => absurd hk k.not_lt_zero, rfl⟩
      · refine .inr ⟨?_, hinstant⟩
        intro j f hj hf
        cases Nat.le_zero.1 hj
        cases hf
        exact hnone
    | succ i =>
      rcases ih he with ⟨j, f, hlast, hinstant⟩ | ⟨hrest, hinstant⟩
      · exact .inl ⟨j + 1, f, hlast.cons, hinstant⟩
      have hbehind : ∀ k f, k < i + 1 → es[k]? = some f → f.time.source ≠ .reported :=
        fun k f hk => hrest k f (Nat.le_of_lt_succ hk)
      -- the events behind the first one fall back on its instant
      rcases hown with hreported | ⟨hnone, hdefault⟩
      · exact .inl ⟨0, first, .first hreported hbehind, hinstant⟩
      · refine .inr ⟨?_, hinstant.trans hdefault⟩
        intro j f hj hf
        cases j with
        | zero =>
          cases hf
          exact hnone
        | succ j => exact hbehind j f hj hf

/-- The instant of an event is that of the nearest event, from itself to the front, with a time of
its own, and the caller's default if there is none. Whether an event has a time of its own, and
which, is what its value resolves to under any default. -/
theorem inherits_of_readAll (h : readAll default body = .ok es) :
    es.length = (valuesIn body).length ∧
      ∀ i e v, es[i]? = some e → (valuesIn body)[i]? = some v →
        ((∃ j f, LastReported es i j f ∧ e.time.instant = f.time.instant) ∨
          (∀ j f, j ≤ i → es[j]? = some f → f.time.source ≠ .reported) ∧
            e.time.instant = default) ∧
        ∀ d, (e.time.source = .reported ↔
            (EventTime.resolve (v.get? "time") d).source = .reported) ∧
          (e.time.parsed = true ↔ (EventTime.resolve (v.get? "time") d).source = .reported) ∧
          (e.time.source = .reported → e.time = EventTime.resolve (v.get? "time") d) := by
  have hdescribes := describes_of_readAll h
  refine ⟨hdescribes.length_eq, fun i e v he hv => ⟨hdescribes.instant_eq he, fun d => ?_⟩⟩
  obtain ⟨d', htime⟩ := hdescribes.time_eq he hv
  rw [htime]
  rcases EventTime.resolve_cases (v.get? "time") with ⟨instant, hreported⟩ | hgenerated
  · rw [hreported, hreported]
    exact ⟨Iff.rfl, ⟨fun _ => rfl, fun _ => rfl⟩, fun _ => rfl⟩
  · rw [hgenerated, hgenerated]
    exact ⟨iff_of_false nofun nofun, iff_of_false nofun nofun, nofun⟩

/-- An event without a time of its own behind one with a time and another without. -/
theorem inherits_untimed :
    ∃ es, readAll 7 (untimed ++ timed ++ untimed) = .ok es ∧
      ∃ j f, LastReported es 2 j f ∧ f.time.instant = 5 := by
  have hread : readAll 7 (untimed ++ timed ++ untimed) =
      .ok [⟨"b", none, none, none, none, .generated 7⟩, ⟨"a", none, none, none, none, .reported 5⟩,
        ⟨"b", none, none, none, none, .generated 5⟩] := ok_of_toOption (by decide +kernel)
  obtain ⟨hlength, hevents⟩ := inherits_of_readAll hread
  have hthird : 2 < (valuesIn (untimed ++ timed ++ untimed)).length := by
    rw [← hlength]
    decide
  obtain ⟨hinstant, -⟩ := hevents 2 _ _ rfl (List.getElem?_eq_getElem hthird)
  refine ⟨_, hread, ?_⟩
  rcases hinstant with ⟨j, f, hlast, hinstant⟩ | ⟨hnone, -⟩
  · exact ⟨j, f, hlast, hinstant.symm⟩
  · exact absurd rfl (hnone 1 _ (by decide) rfl)

end Event

end EventRelay
