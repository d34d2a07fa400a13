import EventRelay.Event.Body

/-!
# Bodies that are spoiled

A body is refused as a whole if what stands somewhere in it is no JSON or describes no event,
however many good events stand before (`SpoiledAfter`). `exists_spoiledAfter_iff` says that these
are all the bodies that are refused; which instants the events fall back on has no part in it.
-/

namespace EventRelay.Event

/-- A value that describes no event: it is no object, or what happened is absent, null or the empty
text. -/
def DescribesNone (v : Json) : Prop :=
  (∀ fields, v ≠ .object fields) ∨ v.get? "event" = none ∨ v.get? "event" = some .null ∨
    v.get? "event" = some (.text "")

/-- A body begins with so many events, and then comes what is no JSON or describes no event. -/
inductive SpoiledAfter : Nat → Bytes → Prop
  | noJson {body : Bytes} {f : Json.Fault} (h : Json.next? body = .error f) : SpoiledAfter 0 body
  | noEvent {body : Bytes} {x : Json.Taken Json body} (h : Json.next? body = .ok (some x))
    (hnone : DescribesNone x.value) : SpoiledAfter 0 body
  | later {n : Nat} {body : Bytes} {x : Json.Taken Json body}
    (h : Json.next? body = .ok (some x)) (hevent : ¬ DescribesNone x.value)
    (hrest : SpoiledAfter n x.rest) : SpoiledAfter (n + 1) body

variable {v : Json} {body : Bytes}

theorem contentOf_error_iff :
    (∃ f, contentOf v = .error f) ↔
      v.get? "event" = none ∨ v.get? "event" = some .null ∨ v.get? "event" = some (.text "") := by
  unfold contentOf
  split
  · next h => simp [h]
  · next h => simp [h]
  · next s h =>
    by_cases hempty : s = ""
    · simp [h, hempty]
    · have hsome : ¬ s.isEmpty = true := fun htrue => hempty (String.isEmpty_iff.1 htrue)
      simp [h, hempty, hsome]
  · next w hnull htext h =>
    constructor
    · rintro ⟨f, ⟨⟩⟩
    · rw [h]
      rintro (hw | hw | hw)
      · cases hw
      · exact absurd (Option.some.inj hw) hnull
      · exact absurd (Option.some.inj hw) (htext "")

theorem ofJson_error_iff (default : Int) :
    (∃ f, ofJson default v = .error f) ↔ DescribesNone v := by
  unfold ofJson
  split
  · next fields =>
    have hobject : DescribesNone (.object fields) ↔ ∃ f, contentOf (.object fields) = .error f := by
      rw [contentOf_error_iff, DescribesNone]
      constructor
      · rintro (hno | hnone)
        · exact absurd rfl (hno fields)
        · exact hnone
      · exact .inr
    rw [hobject]
    cases contentOf (.object fields) with
    | error f => simp
    | ok content => simp
  · next hno => exact ⟨fun _ => .inl hno, fun _ => ⟨_, rfl⟩⟩

theorem readAll_of_spoiledAfter {n : Nat} (h : SpoiledAfter n body) (default : Int) :
    ∃ f, readAll default body = .error f := by
  induction h generalizing default with
  | noJson h => exact ⟨_, by rw [readAll, h]⟩
  | noEvent h hnone =>
    obtain ⟨f, hf⟩ := (ofJson_error_iff default).2 hnone
    exact ⟨f, by rw [readAll, h]; simp only [hf]⟩
  | @later n body x h hevent hrest ih =>
    cases he : ofJson default x.value with
    | error f => exact absurd ((ofJson_error_iff default).1 ⟨f, he⟩) hevent
    | ok e =>
      obtain ⟨f, hf⟩ := ih e.time.instant
      exact ⟨f, by rw [readAll, h]; simp only [he, hf]⟩

theorem spoiledAfter_of_readAll (default : Int) (h : ∃ f, readAll default body = .error f) :
    ∃ n, SpoiledAfter n body := by
  fun_induction readAll default body with
  | case1 default body g hnext => exact ⟨0, .noJson hnext⟩
  | case2 default body hnext => obtain ⟨f, ⟨⟩⟩ := h
  | case3 default body x hnext g hg =>
    exact ⟨0, .noEvent hnext ((ofJson_error_iff default).1 ⟨g, hg⟩)⟩
  | case4 default body x hnext e he _ g hrest ih =>
    obtain ⟨n, hn⟩ := ih ⟨g, hrest⟩
    refine ⟨n + 1, .later hnext ?_ hn⟩
    intro hnone
    obtain ⟨f', hf'⟩ := (ofJson_error_iff default).2 hnone
    rw [he] at hf'
    cases hf'
  | case5 => obtain ⟨f, ⟨⟩⟩ := h

/-- A body is refused exactly if it is spoiled somewhere. -/
theorem exists_spoiledAfter_iff (default : Int) :
    (∃ n, SpoiledAfter n body) ↔ ∃ f, readAll default body = .error f :=
  ⟨fun ⟨_, h⟩ => readAll_of_spoiledAfter h default, spoiledAfter_of_readAll default⟩

end EventRelay.Event
