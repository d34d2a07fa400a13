import EventRelay.Syslog.Message

/-!
# Lines that are read back

A reader of syslog lines that knows nothing of messages. It follows the grammar of RFC5424: priority
and version, header fields with blanks behind them, elements of structured data, and the content
behind one more blank. In the value of a parameter a backslash takes away the meaning of a quote, of
a backslash and of a closing bracket.

Reading the line of a message gives what the message is made of (`Message.parts`), so nothing that a
client supplies is taken for anything else, and two messages have one line only if they say the same
(`read?_line`). That rests on one fact for each kind of thing in a line, with anything behind it: a
field ends at its blank (`field_append`), a value at its quote (`value_escape`), a list of
parameters or elements where none follows (`many_flatMap`).
-/

namespace EventRelay.Syslog

/-- An element of structured data: its name, and its parameters in their order. -/
structure Element where
  id : String
  params : List Param
deriving DecidableEq, Repr

/-- What a line says. -/
structure Parts where
  priority : Nat
  version : Nat
  timestamp : String
  hostname : String
  appname : String
  procid : String
  msgid : String
  elements : List Element
  content : String
deriving DecidableEq, Repr

/-! ## The reader

Each function gives what stands at the front, with what is left behind it. -/

namespace Reader

/-- What is left behind a character that must stand at the front. -/
def skip (c : Char) : List Char → Option (List Char)
  | [] => none
  | d :: l => if d = c then some l else none

def number (l : List Char) : Option (Nat × List Char) :=
  (Text.Numeral.digits? (l.takeWhile Char.isDigit)).map (·, l.dropWhile Char.isDigit)

/-- A header field with the blank behind it. -/
def field (l : List Char) : Option (String × List Char) :=
  match l.takeWhile isGraphic with
  | [] => none
  | c :: f => (skip ' ' (l.dropWhile isGraphic)).map (String.ofList (c :: f), ·)

/-- Whether a character may stand in the name of an element or of a parameter. -/
def isNameChar (c : Char) : Bool := isGraphic c && c ≠ '=' && c ≠ ']' && c ≠ '"'

def name (l : List Char) : Option (String × List Char) :=
  match l.takeWhile isNameChar with
  | [] => none
  | c :: n => some (String.ofList (c :: n), l.dropWhile isNameChar)

/-- A value with the quote behind it. A backslash in front of anything but a quote, a backslash or a
closing bracket stands for itself, and a closing bracket may not stand without one. -/
def value : List Char → Option (List Char × List Char)
  | [] => none
  | '"' :: l => some ([], l)
  | ']' :: _ => none
  | '\\' :: c :: l =>
    if c = '"' ∨ c = '\\' ∨ c = ']' then (value l).map fun x => (c :: x.1, x.2)
    else (value (c :: l)).map fun x => ('\\' :: x.1, x.2)
  | c :: l => (value l).map fun x => (c :: x.1, x.2)

/-- A parameter with the blank in front of it. -/
def param (l : List Char) : Option (Param × List Char) := do
  let l ← skip ' ' l
  let (id, l) ← name l
  let l ← skip '=' l
  let l ← skip '"' l
  let (v, l) ← value l
  return ((id, String.ofList v), l)

/-- As many of a kind as stand one behind the other. -/
def many {α : Type} (one : List Char → Option (α × List Char)) (l : List Char) :
    List α × List Char :=
  match one l with
  | none => ([], l)
  | some (a, rest) =>
    -- what takes nothing off the line could be read for ever
    if rest.length < l.length then
      let x := many one rest
      (a :: x.1, x.2)
    else ([], l)
termination_by l.length

def element (l : List Char) : Option (Element × List Char) := do
  let l ← skip '[' l
  let (id, l) ← name l
  let (params, l) := many param l
  let l ← skip ']' l
  return (⟨id, params⟩, l)

/-- The elements. A dash says that there are none. -/
def elements : List Char → Option (List Element × List Char)
  | '-' :: l => some ([], l)
  | l =>
    match many element l with
    | ([], _) => none
    | x => some x

/-- The content with the blank in front of it, if there is any. -/
def content : List Char → Option String
  | [] => some ""
  | c :: l => (skip ' ' (c :: l)).map String.ofList

end Reader

open Reader in
/-- Takes a line apart. -/
def read? (line : String) : Option Parts := do
  let l ← skip '<' line.toList
  let (priority, l) ← number l
  let l ← skip '>' l
  let (version, l) ← number l
  let l ← skip ' ' l
  let (timestamp, l) ← field l
  let (hostname, l) ← field l
  let (appname, l) ← field l
  let (procid, l) ← field l
  let (msgid, l) ← field l
  let (elements, l) ← elements l
  let content ← content l
  return { priority, version, timestamp, hostname, appname, procid, msgid, elements, content }

/-! ## What is written is read -/

namespace Reader

variable {α : Type} {l rest : List Char}

theorem skip_cons (c : Char) (l : List Char) : skip c (c :: l) = some l := if_pos rfl

theorem takeWhile_cons_of_stop {p : Char → Bool} {c : Char} (h : ∀ d ∈ l, p d = true)
    (hc : p c = false) (rest : List Char) :
    (l ++ c :: rest).takeWhile p = l ∧ (l ++ c :: rest).dropWhile p = c :: rest := by
  rw [List.takeWhile_append_of_pos h, List.dropWhile_append_of_pos h]
  simp [hc]

theorem field_append (hne : l ≠ []) (h : l.all isGraphic = true) :
    field (l ++ ' ' :: rest) = some (String.ofList l, rest) := by
  have hblank : isGraphic ' ' = false := rfl
  obtain ⟨htake, hdrop⟩ := takeWhile_cons_of_stop (List.all_eq_true.1 h) hblank rest
  obtain ⟨c, f, rfl⟩ := List.exists_cons_of_ne_nil hne
  rw [field, htake, hdrop]
  simp only [skip_cons, Option.map_some]

theorem name_append {s : String} {c : Char} (hne : s.toList ≠ [])
    (h : ∀ d ∈ s.toList, isNameChar d = true) (hc : isNameChar c = false) :
    name (s.toList ++ c :: rest) = some (s, c :: rest) := by
  obtain ⟨htake, hdrop⟩ := takeWhile_cons_of_stop h hc rest
  obtain ⟨d, n, hs⟩ := List.exists_cons_of_ne_nil hne
  rw [name, htake, hdrop, hs]
  simp only [← hs, String.ofList_toList]

/-- A value ends at the first quote that is not part of it. -/
theorem value_escape (l rest : List Char) : value (escape l ++ '"' :: rest) = some (l, rest) := by
  induction l with
  | nil => rfl
  | cons c l ih =>
    rw [escape]
    split
    · next hc =>
      rw [List.cons_append, List.cons_append, value, if_pos hc, ih]
      rfl
    · next hc =>
      obtain ⟨hquote, hslash, hbracket⟩ : c ≠ '"' ∧ c ≠ '\\' ∧ c ≠ ']' := by
        simpa only [not_or] using hc
      rw [List.cons_append, value, ih]
      · rfl
      · exact hquote
      · exact hbracket
      · exact fun _ _ h => absurd h hslash

/-- What can be told from its surroundings is read as often as it stands there. -/
theorem many_flatMap {β : Type} {one : List Char → Option (β × List Char)} {write : β → List Char}
    {l : List β} {rest : List Char} (hone : ∀ a ∈ l, ∀ rest, one (write a ++ rest) = some (a, rest))
    (hwrite : ∀ a ∈ l, write a ≠ []) (hrest : one rest = none) :
    many one (l.flatMap write ++ rest) = (l, rest) := by
  induction l with
  | nil =>
    rw [List.flatMap_nil, List.nil_append, many]
    simp only [hrest]
  | cons a l ih =>
    have hlater := ih (fun a' ha' => hone a' (List.mem_cons_of_mem _ ha'))
      (fun a' ha' => hwrite a' (List.mem_cons_of_mem _ ha'))
    have hshorter : (l.flatMap write ++ rest).length <
        (write a ++ (l.flatMap write ++ rest)).length := by
      have hpos := List.length_pos_iff.2 (hwrite a List.mem_cons_self)
      simp only [List.length_append]
      omega
    rw [List.flatMap_cons, List.append_assoc, many]
    simp only [hone a List.mem_cons_self, if_pos hshorter, hlater]

end Reader

/-- A text that can be the name of an element or of a parameter. -/
def IsName (s : String) : Prop := s.toList ≠ [] ∧ ∀ c ∈ s.toList, Reader.isNameChar c = true

instance (s : String) : Decidable (IsName s) :=
  @instDecidableAnd _ _ inferInstance (List.decidableBAll _ _)

namespace Reader

theorem param_paramChars {p : Param} (h : IsName p.1) (rest : List Char) :
    param (paramChars p ++ rest) = some (p, rest) := by
  simp only [param, paramChars, List.cons_append, List.append_assoc, skip_cons,
    name_append h.1 h.2 (c := '=') rfl, List.nil_append, value_escape, String.ofList_toList,
    Option.bind_eq_bind, Option.bind_some, Option.pure_def]

theorem element_elementChars {e : Element} (hid : IsName e.id)
    (hparams : ∀ p ∈ e.params, IsName p.1)
    (rest : List Char) : element (elementChars e.id e.params ++ rest) = some (e, rest) := by
  have hmany : many param (e.params.flatMap paramChars ++ ']' :: rest) = (e.params, ']' :: rest) :=
    many_flatMap (fun p hp => param_paramChars (hparams p hp)) (fun p _ => List.cons_ne_nil _ _) rfl
  -- what stands behind the name is a blank or the bracket at the end
  obtain ⟨c, more, hc, hmore⟩ : ∃ c more, isNameChar c = false ∧
      e.params.flatMap paramChars ++ ']' :: rest = c :: more := by
    cases hp : e.params with
    | nil => exact ⟨']', rest, rfl, rfl⟩
    | cons p params => exact ⟨' ', _, rfl, rfl⟩
  have hname : name (e.id.toList ++ (e.params.flatMap paramChars ++ ']' :: rest)) =
      some (e.id, e.params.flatMap paramChars ++ ']' :: rest) := by
    rw [hmore]
    exact name_append hid.1 hid.2 hc
  simp only [element, elementChars, List.cons_append, List.append_assoc, List.nil_append, skip_cons,
    hname, hmany, Option.bind_eq_bind, Option.bind_some, Option.pure_def]

theorem elements_flatMap (es : List Element) (hne : es ≠ [])
    (h : ∀ e ∈ es, IsName e.id ∧ ∀ p ∈ e.params, IsName p.1) (rest : List Char) :
    elements (es.flatMap (fun e => elementChars e.id e.params) ++ ' ' :: rest) =
      some (es, ' ' :: rest) := by
  have hmany : many element (es.flatMap (fun e => elementChars e.id e.params) ++ ' ' :: rest) =
      (es, ' ' :: rest) :=
    many_flatMap (fun e he => element_elementChars (h e he).1 (h e he).2)
      (fun e _ => List.cons_ne_nil _ _) rfl
  obtain ⟨e, more, rfl⟩ := List.exists_cons_of_ne_nil hne
  rw [elements, hmany]
  exact fun _ heq => by cases heq

end Reader

/-! ## Header fields -/

/-- What is left of a text in a header: its visible ASCII characters, or a dash if it has none. -/
def visible (s : String) : String :=
  let l := s.toList.filter fun c => '!' ≤ c && c ≤ '~'
  if l = [] then "-" else String.ofList l

theorem ofList_headerField (s : String) : String.ofList (headerField s) = visible s := by
  unfold headerField visible
  rw [show (fun c => '!' ≤ c && c ≤ '~' : Char → Bool) = isGraphic from rfl]
  cases s.toList.filter isGraphic with
  | nil => rfl
  | cons c l => rfl

/-- Characters that make up a header field. -/
def IsField (l : List Char) : Prop := l ≠ [] ∧ l.all isGraphic = true

theorem isField_headerField (s : String) : IsField (headerField s) := by
  unfold headerField
  split
  · exact ⟨by decide, by decide⟩
  · next hne =>
    refine ⟨hne, List.all_eq_true.2 ?_⟩
    intro c hc
    exact (List.mem_filter.1 hc).2

theorem isGraphic_of_isDigit {c : Char} (h : c.isDigit = true) : isGraphic c = true := by
  obtain ⟨hlow, hhigh⟩ := Char.isDigit_iff_toNat.1 h
  change 48 ≤ c.toNat at hlow
  change c.toNat ≤ 57 at hhigh
  simp only [isGraphic, Bool.and_eq_true, decide_eq_true_eq]
  omega

theorem all_isGraphic_padded (width n : Nat) : (Calendar.padded width n).all isGraphic = true := by
  refine List.all_eq_true.2 ?_
  intro c hc
  apply isGraphic_of_isDigit
  rcases List.mem_append.1 hc with hc | hc
  · rw [List.eq_of_mem_replicate hc]
    rfl
  · exact Nat.isDigit_of_mem_toDigits (by decide) (by decide) hc

theorem all_isGraphic_yearChars (y : Int) : (Calendar.yearChars y).all isGraphic = true := by
  unfold Calendar.yearChars
  split
  · exact all_isGraphic_padded 4 y.natAbs
  · rw [List.all_cons, all_isGraphic_padded, Bool.and_true]
    split <;> rfl

theorem isField_stampField (m : Message) : IsField m.stampField := by
  unfold Message.stampField Calendar.stamp?
  dsimp only
  split
  · refine ⟨by simp, ?_⟩
    simp only [Option.getD_some, Calendar.timeChars, List.all_append, List.all_cons,
      all_isGraphic_yearChars, all_isGraphic_padded]
    rfl
  · exact ⟨by decide, by decide⟩

/-! ## Messages -/

section Present

variable {params params' : List (String × Option String)}

theorem fst_mem_of_mem_present {p : Param} (h : p ∈ present params) :
    p.1 ∈ params.map Prod.fst := by
  obtain ⟨q, hq, hp⟩ := List.mem_filterMap.1 h
  obtain ⟨v, -, rfl⟩ := Option.map_eq_some_iff.1 hp
  exact List.mem_map_of_mem hq

theorem isName_of_mem_present (h : ∀ n ∈ params.map Prod.fst, IsName n) :
    ∀ p ∈ present params, IsName p.1 := fun p hp => h p.1 (fst_mem_of_mem_present hp)

theorem present_cons (n : String) (o : Option String) :
    present ((n, o) :: params) = (o.map (n, ·)).toList ++ present params := by
  cases o <;> rfl

/-- Where all names are different, what is present shows what is absent. -/
theorem present_inj (hnames : params.map Prod.fst = params'.map Prod.fst)
    (hnodup : (params.map Prod.fst).Nodup) (h : present params = present params') :
    params = params' := by
  induction params generalizing params' with
  | nil => exact (List.map_eq_nil_iff.1 hnames.symm).symm
  | cons p params ih =>
    cases params' with
    | nil => cases hnames
    | cons p' params' =>
      obtain ⟨n, o⟩ := p
      obtain ⟨n', o'⟩ := p'
      obtain ⟨hname, hrest⟩ := List.cons.inj hnames
      obtain ⟨hfresh, hlater⟩ := List.nodup_cons.1 hnodup
      obtain rfl : n = n' := hname
      rw [present_cons, present_cons] at h
      cases o with
      | none =>
        cases o' with
        | none => rw [ih hrest hlater h]
        | some v' =>
          -- the name would stand among the later ones too
          have hmem : (n, v') ∈ present params := by
            rw [show present params = _ from h]
            exact List.mem_cons_self
          exact absurd (fst_mem_of_mem_present hmem) hfresh
      | some v =>
        cases o' with
        | none =>
          have hmem : (n, v) ∈ present params' := by
            rw [show present params' = _ from h.symm]
            exact List.mem_cons_self
          exact absurd (hrest ▸ fst_mem_of_mem_present hmem) hfresh
        | some v' =>
          obtain ⟨hv, htail⟩ := List.cons.inj h
          cases hv
          rw [ih hrest hlater htail]

end Present

namespace Message

variable (m : Message)

/-- What a message is to be read as. A parameter stands there if its value is present, and the
forwarding headers if there are any. -/
def parts : Parts where
  priority := 14
  version := 1
  timestamp := ((Calendar.stamp? m.timestamp).map String.ofList).getD "-"
  hostname := visible m.hostname
  appname := visible m.appname
  procid := "-"
  msgid := "-"
  elements :=
    ⟨"hec_metadata@48577", present
      [("channel", some m.channel), ("ack_id", m.ackId.map Nat.repr),
        ("time_source", some m.event.time.source.word),
        ("time_parsed", some (if m.event.time.parsed then "true" else "false")),
        ("time", some m.event.time.instant.repr), ("host", m.event.host),
        ("source", m.event.source), ("sourcetype", m.event.sourcetype),
        ("index", m.event.index)]⟩ ::
    if m.origin = {} then []
    else
      [⟨"hec_origin@48577", present
        [("X-Forwarded-For", m.origin.forwardedFor), ("X-Forwarded-Host", m.origin.forwardedHost),
          ("X-Forwarded-Proto", m.origin.forwardedProto)]⟩]
  content := m.event.event

theorem originChars_eq :
    m.originChars =
      (if m.origin = {} then [] else [(⟨originId, m.origin.params⟩ : Element)]).flatMap fun e =>
        elementChars e.id e.params := by
  unfold originChars
  obtain ⟨_ | forwardedFor, _ | host, _ | proto⟩ := m.origin <;> simp [Origin.params, present]

theorem isName_parts : ∀ e ∈ m.parts.elements, IsName e.id ∧ ∀ p ∈ e.params, IsName p.1 := by
  have hmetadata : ∀ n ∈ ["channel", "ack_id", "time_source", "time_parsed", "time", "host",
      "source", "sourcetype", "index"], IsName n := by decide
  have horigin : ∀ n ∈ ["X-Forwarded-For", "X-Forwarded-Host", "X-Forwarded-Proto"], IsName n := by
    decide
  have hids : IsName "hec_metadata@48577" ∧ IsName "hec_origin@48577" := by decide
  refine List.forall_mem_cons.2 ⟨⟨hids.1, isName_of_mem_present hmetadata⟩, ?_⟩
  split
  · exact nofun
  · exact List.forall_mem_singleton.2 ⟨hids.2, isName_of_mem_present horigin⟩

theorem chars_eq :
    m.chars = '<' :: '1' :: '4' :: '>' :: '1' :: ' ' :: (m.stampField ++ ' ' ::
      (headerField m.hostname ++ ' ' :: (headerField m.appname ++ ' ' :: (nilField ++ ' ' ::
        (nilField ++ ' ' :: (m.parts.elements.flatMap (fun e => elementChars e.id e.params) ++
          ' ' :: m.event.event.toList)))))) := by
  have helements : m.parts.elements.flatMap (fun e => elementChars e.id e.params) =
      elementChars metadataId m.metadata ++ m.originChars := by
    rw [originChars_eq]
    rfl
  rw [helements]
  simp [chars, headerChars]

theorem ofList_stampField :
    String.ofList m.stampField = ((Calendar.stamp? m.timestamp).map String.ofList).getD "-" := by
  unfold stampField
  cases Calendar.stamp? m.timestamp <;> rfl

/-- Reading the line of a message gives what the message is made of. -/
theorem read?_line_eq_parts : read? m.line = some m.parts := by
  obtain ⟨hstamp, hstamps⟩ := isField_stampField m
  obtain ⟨hhost, hhosts⟩ := isField_headerField m.hostname
  obtain ⟨happ, happs⟩ := isField_headerField m.appname
  have hnil : nilField ≠ [] ∧ nilField.all isGraphic = true := ⟨by decide, by decide⟩
  have hnumber : ∀ rest, Reader.number ('1' :: '4' :: '>' :: rest) = some (14, '>' :: rest) :=
    fun _ => rfl
  have hversion : ∀ rest, Reader.number ('1' :: ' ' :: rest) = some (1, ' ' :: rest) := fun _ => rfl
  have helements :=
    Reader.elements_flatMap m.parts.elements (List.cons_ne_nil _ _) m.isName_parts
      m.event.event.toList
  rw [read?, line, String.toList_ofList, chars_eq]
  simp only [Reader.skip_cons, hnumber, hversion, Reader.field_append hstamp hstamps,
    Reader.field_append hhost hhosts, Reader.field_append happ happs,
    Reader.field_append hnil.1 hnil.2, helements,
    Reader.content, String.ofList_toList, ofList_headerField, ofList_stampField,
    Option.bind_eq_bind, Option.bind_some, Option.map_some, Option.pure_def]
  rfl

end Message

/-! ## What two lines have in common -/

theorem repr_inj {n n' : Nat} (h : n.repr = n'.repr) : n = n' := by
  have hread := Text.Numeral.unsigned?_repr n
  rw [h, Text.Numeral.unsigned?_repr] at hread
  exact (Option.some.inj hread).symm

theorem eventTime_inj {t t' : EventTime} (hinstant : t.instant.repr = t'.instant.repr)
    (hparsed : (if t.parsed then "true" else "false") = if t'.parsed then "true" else "false")
    (hsource : t.source.word = t'.source.word) : t = t' := by
  obtain ⟨instant, parsed, source⟩ := t
  obtain ⟨instant', parsed', source'⟩ := t'
  have hread := Text.Numeral.signed?_repr instant
  rw [hinstant, Text.Numeral.signed?_repr] at hread
  obtain rfl : instant' = instant := Option.some.inj hread
  obtain rfl : parsed = parsed' := by cases parsed <;> cases parsed' <;> simp at hparsed ⊢
  obtain rfl : source = source' := by
    cases source <;> cases source' <;> simp [EventTime.Source.word] at hsource ⊢
  rfl

namespace Message

variable {m m' : Message}

theorem event_eq_of_parts (h : m.parts = m'.parts) :
    m.channel = m'.channel ∧ m.ackId = m'.ackId ∧ m.event = m'.event := by
  have hnodup : ["channel", "ack_id", "time_source", "time_parsed", "time", "host", "source",
    "sourcetype", "index"].Nodup := by decide
  obtain ⟨hmetadata, -⟩ := List.cons.inj (congrArg Parts.elements h)
  have hfields := present_inj (by rfl) (by exact hnodup) (Element.mk.inj hmetadata).2
  simp only [List.cons.injEq, Prod.mk.injEq, Option.some.injEq, true_and, and_true] at hfields
  obtain ⟨hchannel, hack, hword, hparsed, hinstant, hhost, hsource, hsourcetype, hindex⟩ := hfields
  refine ⟨hchannel, (Option.map_inj_right fun _ _ => repr_inj).1 hack, ?_⟩
  have hevent : m.event.event = m'.event.event := congrArg Parts.content h
  have htime := eventTime_inj hinstant hparsed hword
  cases hm : m.event
  cases hm' : m'.event
  simp_all

theorem origin_eq_of_parts (h : m.parts = m'.parts) : m.origin = m'.origin := by
  have hnodup : ["X-Forwarded-For", "X-Forwarded-Host", "X-Forwarded-Proto"].Nodup := by decide
  obtain ⟨-, horigin⟩ := List.cons.inj (congrArg Parts.elements h)
  by_cases hnone : m.origin = {}
  · by_cases hnone' : m'.origin = {}
    · rw [hnone, hnone']
    · rw [if_pos hnone, if_neg hnone'] at horigin
      cases horigin
  · by_cases hnone' : m'.origin = {}
    · rw [if_neg hnone, if_pos hnone'] at horigin
      cases horigin
    · rw [if_neg hnone, if_neg hnone'] at horigin
      have helement := (List.cons.inj horigin).1
      have hfields := present_inj (by rfl) (by exact hnodup) (Element.mk.inj helement).2
      simp only [List.cons.injEq, Prod.mk.injEq, true_and, and_true] at hfields
      obtain ⟨hfor, hhost, hproto⟩ := hfields
      cases hm : m.origin
      cases hm' : m'.origin
      simp_all

/-- The line of a message is read as what the message is made of. So two messages have the same line
exactly if they say the same, up to what a header does not show of a time or a name. -/
theorem read?_line (m : Message) :
    read? m.line = some m.parts ∧
      ∀ m' : Message, m.line = m'.line ↔
        m.stampField = m'.stampField ∧ visible m.hostname = visible m'.hostname ∧
          visible m.appname = visible m'.appname ∧ m.channel = m'.channel ∧ m.ackId = m'.ackId ∧
          m.event = m'.event ∧ m.origin = m'.origin := by
  refine ⟨read?_line_eq_parts m, ?_⟩
  intro m'
  constructor
  · intro h
    have hparts : m.parts = m'.parts := by
      rw [← Option.some.injEq, ← read?_line_eq_parts, ← read?_line_eq_parts, h]
    obtain ⟨hchannel, hack, hevent⟩ := event_eq_of_parts hparts
    have hstamp := congrArg Parts.timestamp hparts
    rw [parts, parts, ← ofList_stampField, ← ofList_stampField, String.ofList_inj] at hstamp
    exact ⟨hstamp, congrArg Parts.hostname hparts, congrArg Parts.appname hparts, hchannel, hack,
      hevent, origin_eq_of_parts hparts⟩
  · rintro ⟨hstamp, hhost, happ, hchannel, hack, hevent, horigin⟩
    rw [← ofList_headerField, ← ofList_headerField, String.ofList_inj] at hhost happ
    simp only [line, chars, headerChars, metadata, originChars, hstamp, hhost, happ, hchannel, hack,
      hevent, horigin]

end Message

end EventRelay.Syslog
