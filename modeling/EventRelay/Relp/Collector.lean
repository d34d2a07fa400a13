import EventRelay.Relp.Socket

/-!
# Collectors that follow a script

A collector with one script for each connection that it takes. A step of a script waits for a number
of frames, then sends bytes of any kind, then may hang up or fall silent for ever. A script at its
end reads on and answers nothing. Connections without a script are served well: every frame is
answered with success, and after a `close` the collector hangs up.
-/

namespace EventRelay.Relp

/-- One step of a script. -/
structure Collector.Step where
  /-- How many frames to wait for. -/
  read : Nat
  /-- What to send then. -/
  send : Bytes
  /-- Whether to hang up after that. -/
  close : Bool := false
  /-- Whether to do nothing more after that. -/
  stall : Bool := false
deriving DecidableEq, Repr

/-- What a collector does on a connection. -/
inductive Collector.Role where
  /-- Follows what is left of a script; so many frames have been read for its first step. -/
  | scripted (steps : List Collector.Step) (frames : Nat)
  /-- Answers every frame. -/
  | serving
  /-- Does nothing more. -/
  | stalled
  | hungUp
deriving DecidableEq, Repr

/-- A collector and what it has read. -/
structure Collector where
  /-- The scripts of connections to come. -/
  scripts : List (List Collector.Step) := []
  /-- Whether nobody takes connections. -/
  refuses : Bool := false
  role : Collector.Role := .hungUp
  /-- Bytes of the connection that are no whole frame yet. -/
  heard : Bytes := []
  /-- The frames that were read, the latest connection and its latest frame first. -/
  transcripts : List (List Frame) := []

namespace Collector

/-- The answer of a collector that serves. -/
def success (f : Frame) : Frame := ⟨f.txnr, "rsp", Text.Utf8.encode "200 OK"⟩

/-- Does the steps that wait for no more frames. -/
def proceed (frames : Nat) : List Step → Bytes × Role
  | [] => ([], .scripted [] frames)
  | step :: rest =>
    if frames < step.read then ([], .scripted (step :: rest) frames)
    else if step.close then (step.send, .hungUp)
    else if step.stall then (step.send, .stalled)
    else
      let x := proceed 0 rest
      (step.send ++ x.1, x.2)

/-- What a role makes of a frame: what it sends, and the role that follows. -/
def Role.meet (f : Frame) : Role → Bytes × Role
  | .scripted steps frames => proceed (frames + 1) steps
  | .serving => ((success f).encode, if f.command = "close" then .hungUp else .serving)
  | r => ([], r)

/-- Whether a role still reads. -/
def Role.reads : Role → Bool
  | .scripted _ _ => true
  | .serving => true
  | _ => false

/-- Notes a frame of the present connection. -/
def note (f : Frame) (c : Collector) : Collector :=
  match c.transcripts with
  | [] => { c with transcripts := [[f]] }
  | t :: ts => { c with transcripts := (f :: t) :: ts }

/-- Reads the frames that have been heard, and acts on each; with what it sends. -/
def act (c : Collector) : Bytes × Collector :=
  if c.role.reads then
    match h : Frame.read .silent c.heard with
    | (.error _, _) => ([], c)
    | (.ok f, rest) =>
      have : rest.length < c.heard.length := by
        have := Frame.read_ok_lt (e := .silent) (s := c.heard) (f := f) (by rw [h])
        rwa [h] at this
      let x := c.role.meet f
      let y := act { c with role := x.2, heard := rest, transcripts := (c.note f).transcripts }
      (x.1 ++ y.1, y.2)
  else ([], c)
termination_by c.heard.length

/-- How the stream to the client goes on. -/
def ending (c : Collector) : Ending := if c.role = .hungUp then .closed else .silent

instance : Peer Collector where
  accept c :=
    if c.refuses then (.error .io, c)
    else
      let role :=
        match c.scripts with
        | [] => .serving
        | script :: _ => .scripted script 0
      (.ok (),
        { c with
          scripts := c.scripts.drop 1, role, heard := [], transcripts := [] :: c.transcripts })
  hear bytes c :=
    -- a script may begin with what waits for no frame
    let x :=
      match c.role with
      | .scripted steps frames => proceed frames steps
      | role => ([], role)
    let y := act { c with role := x.2, heard := c.heard ++ bytes }
    (.ok ⟨x.1 ++ y.1, ending y.2⟩, y.2)
  lose c := { c with role := .hungUp, heard := [] }

end Collector

end EventRelay.Relp
