import EventRelay.Proofs.Relp.Exchange
import EventRelay.Relp.Operation

/-!
# A trace takes no part in the work

A client sees of its wire what the wire answers. So if one wire answers like another one and each
step of the one is a step of the other (`Forgets`), a client does the same on both
(`Operation.runAll_map`). A wire that keeps a trace is such a wire (`Traced.forgets_inner`).
-/

namespace EventRelay.Relp

/-- Seen through a function, a wire is another one. -/
structure Forgets {ν μ : Type} [Wire ν] [Wire μ] (f : ν → μ) : Prop where
  dial : ∀ w, Wire.dial (f w) = ((Wire.dial w).1, f (Wire.dial w).2)
  write : ∀ frames w,
    Wire.write frames (f w) = ((Wire.write frames w).1, f (Wire.write frames w).2)
  read : ∀ w, Wire.read (f w) = ((Wire.read w).1, f (Wire.read w).2)
  hangUp : ∀ w, Wire.hangUp (f w) = f (Wire.hangUp w)

theorem Traced.forgets_inner {ν : Type} [Wire ν] : Forgets (Traced.inner (ν := ν)) :=
  ⟨fun _ => rfl, fun _ _ => rfl, fun _ => rfl, fun _ => rfl⟩

/-! ## One frame of an answer -/

section Steps

variable {ν : Type} [Wire ν] {w w' : ν} {command : String} {x : Nat} {inFlight : InFlight}
  {confirmed : List Nat}

theorem awaitAnswer_of_error {e : Fault} (h : Wire.read w = (.error e, w')) :
    awaitAnswer command x w = (.error e, w') := by
  rw [awaitAnswer]
  split
  · next h' =>
    cases h'.symm.trans h
    rfl
  · next h' => cases h'.symm.trans h

theorem awaitAnswer_of_ok {f : Frame} (h : Wire.read w = (.ok f, w')) :
    awaitAnswer command x w =
      if f.command = closing then (.error .serverClose, w')
      else if f.command = answering ∧ f.txnr = x then
        (if f.isSuccess then .ok () else .error (.violation (.rejected command f.data)), w')
      else awaitAnswer command x w' := by
  rw [awaitAnswer]
  split
  · next h' => cases h'.symm.trans h
  · next h' =>
    cases h'.symm.trans h
    rfl

theorem settle_of_isEmpty (h : inFlight.isEmpty = true) :
    settle inFlight confirmed w = (.ok (), confirmed, w) := by
  rw [settle, if_pos h]

theorem settle_of_error {e : Fault} (hsome : ¬ inFlight.isEmpty = true)
    (h : Wire.read w = (.error e, w')) :
    settle inFlight confirmed w = (.error e, confirmed, w') := by
  rw [settle, if_neg hsome]
  split
  · next h' =>
    cases h'.symm.trans h
    rfl
  · next h' => cases h'.symm.trans h

theorem settle_of_ok {f : Frame} (hsome : ¬ inFlight.isEmpty = true)
    (h : Wire.read w = (.ok f, w')) :
    settle inFlight confirmed w =
      if f.command = closing then (.error .serverClose, confirmed, w')
      else if f.command = answering then
        match inFlight[f.txnr]? with
        | some position =>
          settle (inFlight.erase f.txnr)
            (if f.isSuccess then confirmed ++ [position] else confirmed) w'
        | none => settle inFlight confirmed w'
      else settle inFlight confirmed w' := by
  rw [settle, if_neg hsome]
  split
  · next h' => cases h'.symm.trans h
  · next h' =>
    cases h'.symm.trans h
    rfl

end Steps

/-! ## The same client on another wire -/

/-- A client on another wire. -/
def Connection.map {ν μ : Type} (f : ν → μ) (c : Connection ν) : Connection μ :=
  { c with wire := f c.wire }

section Forgets

variable {ν μ : Type} [Wire ν] [Wire μ] {f : ν → μ}

theorem Forgets.read_eq (hf : Forgets f) {w w' : ν} {result : Except Fault Frame}
    (h : Wire.read w = (result, w')) : Wire.read (f w) = (result, f w') := by
  rw [hf.read, h]

theorem Forgets.dial_eq (hf : Forgets f) {w w' : ν} {result : Except Fault Unit}
    (h : Wire.dial w = (result, w')) : Wire.dial (f w) = (result, f w') := by
  rw [hf.dial, h]

theorem Forgets.write_eq (hf : Forgets f) {w w' : ν} {frames : List Frame}
    {result : Except Fault Unit} (h : Wire.write frames w = (result, w')) :
    Wire.write frames (f w) = (result, f w') := by
  rw [hf.write, h]

theorem awaitAnswer_map (hf : Forgets f) (command : String) (x : Nat) (w : ν) :
    awaitAnswer command x (f w) = (awaitAnswer command x w).map id f := by
  fun_induction awaitAnswer command x w with
  | case1 w e w' hread => rw [awaitAnswer_of_error (hf.read_eq hread)]; rfl
  | case2 w g w' hread _ hclosing =>
    rw [awaitAnswer_of_ok (hf.read_eq hread), if_pos hclosing]
    rfl
  | case3 w g w' hread _ hopen hanswers =>
    rw [awaitAnswer_of_ok (hf.read_eq hread), if_neg hopen, if_pos hanswers]
    rfl
  | case4 w g w' hread _ hopen hother ih =>
    rw [awaitAnswer_of_ok (hf.read_eq hread), if_neg hopen, if_neg hother, ih]

theorem settle_map (hf : Forgets f) (inFlight : InFlight) (confirmed : List Nat) (w : ν) :
    settle inFlight confirmed (f w) = (settle inFlight confirmed w).map id (Prod.map id f) := by
  fun_induction settle inFlight confirmed w with
  | case1 inFlight confirmed w hempty => rw [settle_of_isEmpty hempty]; rfl
  | case2 inFlight confirmed w hsome e w' hread =>
    rw [settle_of_error hsome (hf.read_eq hread)]
    rfl
  | case3 inFlight confirmed w hsome g w' hread _ hclosing =>
    rw [settle_of_ok hsome (hf.read_eq hread), if_pos hclosing]
    rfl
  | case4 inFlight confirmed w hsome g w' hread _ hopen hcommand position hposition ih =>
    rw [settle_of_ok hsome (hf.read_eq hread), if_neg hopen, if_pos hcommand]
    simp only [hposition]
    exact ih
  | case5 inFlight confirmed w hsome g w' hread _ hopen hcommand hnone ih =>
    rw [settle_of_ok hsome (hf.read_eq hread), if_neg hopen, if_pos hcommand]
    simp only [hnone]
    exact ih
  | case6 inFlight confirmed w hsome g w' hread _ hopen hcommand ih =>
    rw [settle_of_ok hsome (hf.read_eq hread), if_neg hopen, if_neg hcommand]
    exact ih

namespace Connection

omit [Wire ν] [Wire μ] in
theorem number_map (pending : List (Nat × Bytes)) (c : Connection ν) :
    (c.map f).number pending = (c.number pending).map id (map f) := by
  induction pending generalizing c with
  | nil => rfl
  | cons e pending ih =>
    have hrest : (c.map f).takeTxnr.2.number pending = _ := ih c.takeTxnr.2
    simp only [number, hrest]
    rfl

theorem tearDown_map (hf : Forgets f) (c : Connection ν) :
    (c.map f).tearDown = c.tearDown.map f := by
  cases hc : c.connected with
  | false =>
    have hc' : (c.map f).connected = false := hc
    rw [tearDown_of_not_connected hc, tearDown_of_not_connected hc']
  | true =>
    have hc' : (c.map f).connected = true := hc
    rw [tearDown_of_connected hc, tearDown_of_connected hc']
    simp only [map, hf.hangUp]

theorem exchange_map (hf : Forgets f) (command : String) (data : Bytes) (c : Connection ν) :
    (c.map f).exchange command data = (c.exchange command data).map id (map f) := by
  cases hc : c.connected with
  | false =>
    have hc' : (c.map f).connected = false := hc
    rw [exchange_of_not_connected hc, exchange_of_not_connected hc']
    rfl
  | true =>
    have hc' : (c.map f).connected = true := hc
    obtain ⟨e, w, hwrite⟩ | ⟨w, hwrite⟩ :=
      error_or_ok (Wire.write [⟨c.nextTxnr, command, data⟩] c.wire)
    · rw [exchange_of_error hc hwrite, exchange_of_error hc' (hf.write_eq hwrite)]
      rfl
    · rw [exchange_of_ok hc hwrite, exchange_of_ok hc' (hf.write_eq hwrite), awaitAnswer_map hf]
      rfl

theorem startSession_map (hf : Forgets f) (c : Connection ν) :
    (c.map f).startSession = c.startSession.map id (map f) := by
  have hdials {result : Except Fault Unit} {w : ν}
      (h : Wire.dial c.tearDown.wire = (result, w)) :
      Wire.dial (c.map f).tearDown.wire = (result, f w) := by
    rw [tearDown_map hf]
    exact hf.dial_eq h
  obtain ⟨e, w, hdial⟩ | ⟨w, hdial⟩ := error_or_ok (Wire.dial c.tearDown.wire)
  · rw [startSession_of_error hdial, startSession_of_error (hdials hdial), tearDown_map hf]
    rfl
  · have hdialed : (c.map f).dialed (f w) = (c.dialed w).map f := by
      unfold dialed
      rw [tearDown_map hf]
      rfl
    rw [startSession_of_ok hdial, startSession_of_ok (hdials hdial), hdialed, exchange_map hf]

theorem connect_map (hf : Forgets f) (c : Connection ν) :
    (c.map f).connect = c.connect.map id (map f) := by
  have hstarts := startSession_map hf c
  obtain ⟨e, c', hstart⟩ | ⟨c', hstart⟩ := error_or_ok c.startSession
  · rw [hstart] at hstarts
    rw [connect_of_error hstart, connect_of_error hstarts, tearDown_map hf]
    rfl
  · rw [hstart] at hstarts
    rw [connect_of_ok hstart, connect_of_ok hstarts]
    rfl

theorem commit_map (hf : Forgets f) (pending : List (Nat × Bytes)) (c : Connection ν) :
    (c.map f).commit pending = (c.commit pending).map id (Prod.map id (map f)) := by
  have hnumber := number_map (f := f) pending c
  cases hc : c.connected with
  | false =>
    have hc' : (c.map f).connected = false := hc
    rw [commit_of_not_connected hc, commit_of_not_connected hc', hnumber]
    rfl
  | true =>
    have hc' : (c.map f).connected = true := hc
    have hframes : (c.map f).frames pending = c.frames pending := by rw [frames, hnumber]; rfl
    obtain ⟨e, w, hwrite⟩ | ⟨w, hwrite⟩ := error_or_ok (Wire.write (c.frames pending) c.wire)
    · have hwrite' : Wire.write ((c.map f).frames pending) (c.map f).wire = (.error e, f w) :=
        hframes ▸ hf.write_eq hwrite
      rw [commit_of_error hc hwrite, commit_of_error hc' hwrite', hnumber]
      rfl
    · have hwrite' : Wire.write ((c.map f).frames pending) (c.map f).wire = (.ok (), f w) :=
        hframes ▸ hf.write_eq hwrite
      rw [commit_of_ok hc hwrite, commit_of_ok hc' hwrite', hnumber]
      simp only [Prod.map_fst, Prod.map_snd, id, settle_map hf]
      rfl

theorem disconnect_map (hf : Forgets f) (c : Connection ν) :
    (c.map f).disconnect = c.disconnect.map id (map f) := by
  have hend : (c.map f).endSession = c.endSession.map id (map f) := by
    unfold endSession
    rw [exchange_map hf]
    obtain ⟨result, c'⟩ := c.exchange "close" []
    rcases result with e | u
    · cases e <;> rfl
    · rfl
  unfold disconnect
  simp only [hend]
  exact Prod.ext rfl (tearDown_map hf _)

theorem Operation.run_map (hf : Forgets f) (op : Operation) (c : Connection ν) :
    op.run (c.map f) = (op.run c).map id (map f) := by
  cases op with
  | connect => simp only [run, connect_map hf]; rfl
  | commit batch => simp only [run, commit_map hf]; rfl
  | disconnect => simp only [run, disconnect_map hf]; rfl
  | tearDown => simp only [run, tearDown_map hf]; rfl

/-- On a wire that forgets, a client answers what it answers on the other one. -/
theorem Operation.runAll_map (hf : Forgets f) (ops : List Operation) (c : Connection ν) :
    runAll ops (c.map f) = (runAll ops c).map id (map f) := by
  induction ops generalizing c with
  | nil => rfl
  | cons op ops ih =>
    simp only [runAll, run_map hf, Prod.map_snd, ih]
    rfl

end Connection

end Forgets

end EventRelay.Relp
