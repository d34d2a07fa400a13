import EventRelay.Event.Body
import EventRelay.Proofs.Json.Sequence

/-!
# Bodies one behind the other

A body that holds events may be followed by another body. The events of both are those of the one
and then those of the other, in which the first event without a time falls back on the last instant
of the body before (`fallback`); and what spoils the second body spoils the whole. A body spoiled by
an object without a usable event stays so, whatever is put behind it. `readAll_append` says both.
-/

namespace EventRelay.Event

variable {v : Json} {a : Bytes} {default : Int}

/-- The instant that an event behind these falls back on. -/
def fallback (default : Int) (es : List Event) : Int :=
  (es.getLast?.map fun e => e.time.instant).getD default

@[simp] theorem fallback_nil (default : Int) : fallback default [] = default := rfl

@[simp] theorem fallback_cons (default : Int) (e : Event) (es : List Event) :
    fallback default (e :: es) = fallback e.time.instant es := by
  cases h : es.getLast? <;> simp [fallback, List.getLast?_cons, h]

theorem object_of_ofJson {e : Event} (h : ofJson default v = .ok e) :
    ∃ fields, v = .object fields := by
  cases v with
  | object fields => exact ⟨fields, rfl⟩
  | _ => cases h

theorem object_of_ofJson_error {f : Fault} (h : ofJson default v = .error f)
    (hf : f = .eventMissing ∨ f = .eventBlank) : ∃ fields, v = .object fields := by
  cases v with
  | object fields => exact ⟨fields, rfl⟩
  | _ =>
    cases h
    rcases hf with hf | hf <;> cases hf

theorem readAll_eq_found (default : Int) (body : Bytes) :
    readAll default body =
      match Json.found (Json.next? body) with
      | .error f => .error (.syntaxFault f)
      | .ok none => .ok []
      | .ok (some (v, rest)) =>
        match ofJson default v with
        | .error f => .error f
        | .ok e => (readAll e.time.instant rest).map (e :: ·) := by
  rw [readAll]
  cases Json.next? body with
  | error f => rfl
  | ok o =>
    cases o with
    | none => rfl
    | some x =>
      simp only [Json.found, Except.map, Option.map_some]
      cases ofJson default x.value with
      | error f => rfl
      | ok e =>
        dsimp only
        cases readAll e.time.instant x.rest <;> rfl

/-- White space in front of a body is of no account. -/
theorem readAll_append_of_none (h : Json.next? a = .ok none) (b : Bytes) :
    readAll default (a ++ b) = readAll default b := by
  have hblank := Json.skipSpace_of_found_none (congrArg Json.found h)
  have hfound := Json.found_next?_congr (Json.skipSpace_append_of_blank hblank b)
  rw [readAll_eq_found, hfound, ← readAll_eq_found]

/-- The first event of a body is its first whatever is put behind the body. -/
theorem readAll_append_of_object {x : Json.Taken Json a} {fields : List (String × Json)}
    (h : Json.next? a = .ok (some x)) (hobject : x.value = .object fields) (b : Bytes) :
    readAll default (a ++ b) =
      match ofJson default x.value with
      | .error f => .error f
      | .ok e => (readAll e.time.instant (x.rest ++ b)).map (e :: ·) := by
  have hfound : Json.found (Json.next? a) = .ok (some (.object fields, x.rest)) := by
    rw [h, ← hobject]
    rfl
  rw [readAll_eq_found, Json.found_next?_append_of_object hfound b, ← hobject]

theorem readAll_append_of_ok {es : List Event} (h : readAll default a = .ok es) (b : Bytes) :
    readAll default (a ++ b) = (readAll (fallback default es) b).map (es ++ ·) := by
  fun_induction readAll default a generalizing es with
  | case2 default a hnext =>
    cases h
    rw [readAll_append_of_none hnext, fallback_nil]
    cases readAll default b <;> rfl
  | case5 default a x hnext e he _ es' hes' ih =>
    cases h
    obtain ⟨fields, hobject⟩ := object_of_ofJson he
    rw [readAll_append_of_object hnext hobject, he]
    simp only [ih hes', fallback_cons]
    cases readAll (fallback e.time.instant es') b <;> rfl
  | _ => cases h

theorem readAll_append_of_error {f : Fault} (hf : f = .eventMissing ∨ f = .eventBlank)
    (h : readAll default a = .error f) (b : Bytes) : readAll default (a ++ b) = .error f := by
  fun_induction readAll default a with
  | case1 default a g hnext =>
    cases h
    rcases hf with hf | hf <;> cases hf
  | case3 default a x hnext g hg =>
    cases h
    obtain ⟨fields, hobject⟩ := object_of_ofJson_error hg hf
    rw [readAll_append_of_object hnext hobject, hg]
  | case4 default a x hnext e he _ g hg ih =>
    cases h
    obtain ⟨fields, hobject⟩ := object_of_ofJson he
    rw [readAll_append_of_object hnext hobject, he]
    simp only [ih hg]
    rfl
  | _ => cases h

/-- Two bodies make one that holds the events of both, the second being read with the last instant
of the first to fall back on; and it fails as the second does, for the same cause and with as many
bytes left. Nothing that follows helps a body in which what happened is missing or blank. -/
theorem readAll_append (default : Int) (a b : Bytes) :
    (∀ es, readAll default a = .ok es →
      readAll default (a ++ b) =
        match readAll (fallback default es) b with
        | .ok fs => .ok (es ++ fs)
        | .error f => .error f) ∧
    (∀ f, f = .eventMissing ∨ f = .eventBlank → readAll default a = .error f →
      readAll default (a ++ b) = .error f) := by
  refine ⟨fun es hes => ?_, fun f hf h => readAll_append_of_error hf h b⟩
  rw [readAll_append_of_ok hes b]
  cases readAll (fallback default es) b <;> rfl

/-- A body with one event that says its time. -/
def timed : Bytes := Text.Utf8.encode "\x7b\"event\":\"a\",\"time\":5\x7d\n"

/-- A body with one event that does not. -/
def untimed : Bytes := Text.Utf8.encode " \x7b\"event\":\"b\"\x7d"

/-- A body in which what happened is the empty text, and then an event. -/
def blank : Bytes := Text.Utf8.encode "\x7b\"event\":\"\"\x7d" ++ timed

theorem ok_of_toOption {r : Except Fault (List Event)} {es : List Event}
    (h : r.toOption = some es) : r = .ok es := by
  cases r with
  | error f => cases h
  | ok es' => exact congrArg Except.ok (Option.some.inj h)

theorem readAll_append_timed :
    readAll 0 (timed ++ untimed) =
      .ok [⟨"a", none, none, none, none, .reported 5⟩,
        ⟨"b", none, none, none, none, .generated 5⟩] ∧
    readAll 0 (blank ++ untimed) = .error .eventBlank := by
  have htimed : readAll 0 timed = .ok [⟨"a", none, none, none, none, .reported 5⟩] :=
    ok_of_toOption (by decide +kernel)
  have huntimed : readAll 5 untimed = .ok [⟨"b", none, none, none, none, .generated 5⟩] :=
    ok_of_toOption (by decide +kernel)
  have hblank : readAll 0 blank = .error .eventBlank := by
    have hfault : (match readAll 0 blank with
      | .error .eventBlank => true
      | _ => false) = true := by decide +kernel
    split at hfault
    · assumption
    · cases hfault
  obtain ⟨hboth, -⟩ := readAll_append 0 timed untimed
  obtain ⟨-, hspoiled⟩ := readAll_append 0 blank untimed
  refine ⟨?_, hspoiled .eventBlank (.inr rfl) hblank⟩
  rw [hboth _ htimed, fallback_cons, fallback_nil, EventTime.reported, huntimed]
  rfl

end EventRelay.Event
