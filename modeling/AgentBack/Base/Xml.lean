import Mathlib.Data.List.Basic

/-!
# XML text

An element is printed with its text escaped, and read by a machine that takes one character at a
time. This is the part of XML in which there are only elements and text: no attributes, empty-element
tags, comments, processing instructions, CDATA sections, declarations or numeric references. A name
carries its validity, so that every tree can be printed; what is printed is read back with its line
ends normalised, exactly when its characters are XML characters (`parse_print`).
-/

namespace AgentBack.Xml

/-! ## Characters and names -/

/-- `Char` of the XML recommendation. -/
def isXmlChar (c : Char) : Bool :=
  decide (c = '\t' ∨ c = '\n' ∨ c = '\r' ∨
    (0x20 ≤ c.toNat ∧ c.toNat ≠ 0xfffe ∧ c.toNat ≠ 0xffff))

def isXmlSpace (c : Char) : Bool := decide (c = ' ' ∨ c = '\t' ∨ c = '\n' ∨ c = '\r')

/-- A letter or a digit of a name, or one of the signs that a name may have. -/
def isNameChar (c : Char) : Bool :=
  c.isAlphanum || decide (c = '_' ∨ c = '-' ∨ c = '.' ∨
    (0xc0 ≤ c.toNat ∧ c.toNat < 0x2000 ∧ c.toNat ≠ 0xd7 ∧ c.toNat ≠ 0xf7))

/-- A name begins with none of the digits, `-` and `.`. -/
def isName (cs : List Char) : Bool :=
  match cs with
  | [] => false
  | c :: _ => cs.all isNameChar && !c.isDigit && decide (c ≠ '-' ∧ c ≠ '.')

structure Name where
  chars : List Char
  valid : isName chars = true
  deriving DecidableEq

/-- An element: its name, the text before its first child, and its children. -/
inductive Element where
  | mk (tag : Name) (text : List Char) (children : List Element)

namespace Element

def tag : Element → Name
  | mk tag _ _ => tag

def text : Element → List Char
  | mk _ text _ => text

def children : Element → List Element
  | mk _ _ children => children

/-- `element.find(tag)`. -/
def find (e : Element) (tag : Name) : Option Element := e.children.find? fun child => child.tag = tag

/-- `element.findall(tag)`. -/
def findall (e : Element) (tag : Name) : List Element :=
  e.children.filter fun child => child.tag = tag

end Element

mutual
/-- Every name in the element satisfies the predicate. -/
def Element.allTags (p : Name → Bool) : Element → Bool
  | .mk tag _ children => p tag && Element.allTagsIn p children

def Element.allTagsIn (p : Name → Bool) : List Element → Bool
  | [] => true
  | e :: rest => e.allTags p && Element.allTagsIn p rest
end

/-- `html.escape(text, quote=False)` of one character. -/
def escapeChar (c : Char) : List Char :=
  if c = '&' then "&amp;".toList
  else if c = '<' then "&lt;".toList
  else if c = '>' then "&gt;".toList
  else [c]

/-- `html.escape(text, quote=False)`. -/
def escape (text : List Char) : List Char := text.flatMap escapeChar

mutual
def print : Element → List Char
  | .mk tag text children =>
    '<' :: (tag.chars ++ '>' :: (escape text ++ (printAll children ++ '<' :: '/' :: (tag.chars ++ ['>']))))

def printAll : List Element → List Char
  | [] => []
  | e :: rest => print e ++ printAll rest
end

/-! ## Reading -/

/-- The line ends of a text as a parser reports them. -/
def newlines : List Char → List Char
  | [] => []
  | '\r' :: '\n' :: rest => '\n' :: newlines rest
  | '\r' :: rest => '\n' :: newlines rest
  | c :: rest => c :: newlines rest

structure Frame where
  tag : Name
  text : List Char
  children : List Element

inductive Mode where
  | content
  | tag (read : List Char)
  | reference (read : List Char)

structure Reader where
  stack : List Frame
  root : Option Element
  mode : Mode

/-- A character of the content: it belongs to the open element until that has a child. -/
def Reader.addChar (r : Reader) (c : Char) : Option Reader :=
  match r.stack with
  | [] => if isXmlSpace c then some { r with mode := .content } else none
  | frame :: rest =>
    let frame := match frame.children with
      | [] => { frame with text := frame.text ++ [c] }
      | _ => frame
    some { r with stack := frame :: rest, mode := .content }

/-- An element is complete: it is a child of the open element, or the root. -/
def Reader.complete (stack : List Frame) (root : Option Element) (e : Element) : Reader :=
  match stack with
  | [] => ⟨[], some e, .content⟩
  | frame :: rest => ⟨{ frame with children := frame.children ++ [e] } :: rest, root, .content⟩

def entity (read : List Char) : Option Char :=
  if read = "amp".toList then some '&'
  else if read = "lt".toList then some '<'
  else if read = "gt".toList then some '>'
  else if read = "quot".toList then some '"'
  else if read = "apos".toList then some '\''
  else none

def Reader.endTag (r : Reader) (read : List Char) : Option Reader :=
  match read with
  | '/' :: closing =>
    match r.stack with
    | [] => none
    | frame :: rest =>
      if closing = frame.tag.chars then
        some (complete rest r.root (.mk frame.tag frame.text frame.children))
      else none
  | opening =>
    if h : isName opening = true then
      if r.stack.isEmpty && r.root.isSome then none
      else some { r with stack := ⟨⟨opening, h⟩, [], []⟩ :: r.stack, mode := .content }
    else none

def Reader.step (r : Reader) (c : Char) : Option Reader :=
  match r.mode with
  | .content =>
    if c = '<' then some { r with mode := .tag [] }
    else if c = '&' then some { r with mode := .reference [] }
    else r.addChar c
  | .tag read =>
    if c = '>' then r.endTag read
    else if c = '<' then none
    else some { r with mode := .tag (read ++ [c]) }
  | .reference read =>
    if c = ';' then (entity read).bind r.addChar
    else some { r with mode := .reference (read ++ [c]) }

def Reader.run (r : Reader) (cs : List Char) : Option Reader := cs.foldlM Reader.step r

/-- The element of a text that is well formed. -/
def parse (cs : List Char) : Option Element :=
  if cs.all isXmlChar then
    match Reader.run ⟨[], none, .content⟩ (newlines cs) with
    | some ⟨[], root, .content⟩ => root
    | _ => none
  else none

/-! ## What the reader makes of printed text -/

theorem Reader.run_append (r : Reader) (cs cs' : List Char) :
    r.run (cs ++ cs') = (r.run cs).bind fun r' => r'.run cs' :=
  List.foldlM_append

theorem Reader.run_cons (r : Reader) (c : Char) (cs : List Char) :
    r.run (c :: cs) = (r.step c).bind fun r' => r'.run cs :=
  List.foldlM_cons

/-- Text is escaped so that the reader finds it again. -/
theorem Reader.run_escape (frame : Frame) (rest : List Frame) (root : Option Element)
    (hchildren : frame.children = []) (text : List Char) :
    Reader.run ⟨frame :: rest, root, .content⟩ (escape text) =
      some ⟨{ frame with text := frame.text ++ text } :: rest, root, .content⟩ := by
  induction text generalizing frame with
  | nil =>
    rw [List.append_nil]
    rfl
  | cons c text ih =>
    have hadd : ∀ mode, Reader.addChar ⟨frame :: rest, root, mode⟩ c =
        some ⟨{ frame with text := frame.text ++ [c] } :: rest, root, .content⟩ := by
      intro mode
      unfold Reader.addChar
      simp only [hchildren]
    have hchar : Reader.run ⟨frame :: rest, root, .content⟩ (escapeChar c) =
        some ⟨{ frame with text := frame.text ++ [c] } :: rest, root, .content⟩ := by
      unfold escapeChar
      split
      · next hc =>
        subst hc
        simp [Reader.step, entity, Reader.run, hadd]
      · split
        · next hc =>
          subst hc
          simp [Reader.step, entity, Reader.run, hadd]
        · split
          · next hc =>
            subst hc
            simp [Reader.step, entity, Reader.run, hadd]
          · next hamp hlt _ =>
            simp [Reader.step, Reader.run, hadd, hamp, hlt]
    have hescape : escape (c :: text) = escapeChar c ++ escape text := rfl
    rw [hescape, Reader.run_append, hchar, Option.bind_some,
      ih { frame with text := frame.text ++ [c] } hchildren]
    simp only [List.append_assoc, List.singleton_append]

theorem Reader.run_tag {r : Reader} (read : List Char) (hmode : r.mode = .tag read)
    (cs : List Char) (hopen : '<' ∉ cs) (hclose : '>' ∉ cs) :
    r.run (cs ++ ['>']) = r.endTag (read ++ cs) := by
  induction cs generalizing r read with
  | nil =>
    rw [List.nil_append, Reader.run_cons, Reader.step, hmode]
    simp [Reader.run]
  | cons c cs ih =>
    have hc : c ≠ '<' := fun h => hopen (h ▸ List.mem_cons_self)
    have hc' : c ≠ '>' := fun h => hclose (h ▸ List.mem_cons_self)
    rw [List.cons_append, Reader.run_cons, Reader.step, hmode]
    simp only [hc, hc', if_false, Option.bind_some]
    rw [ih (read ++ [c]) rfl (fun h => hopen (.tail _ h))
      (fun h => hclose (.tail _ h)), List.append_assoc]
    rfl

theorem Name.isNameChar_of_mem (name : Name) {c : Char} (h : c ∈ name.chars) :
    isNameChar c = true := by
  obtain ⟨chars, valid⟩ := name
  cases chars with
  | nil => cases h
  | cons first rest =>
    unfold isName at valid
    simp only [Bool.and_eq_true] at valid
    exact List.all_eq_true.mp valid.1.1 c h

theorem Name.not_mem (name : Name) {c : Char} (h : isNameChar c = false) : c ∉ name.chars := by
  intro hmem
  rw [name.isNameChar_of_mem hmem] at h
  cases h

theorem Reader.run_open (stack : List Frame) (root : Option Element)
    (hroot : stack = [] → root = none) (tag : Name) :
    Reader.run ⟨stack, root, .content⟩ ('<' :: (tag.chars ++ ['>'])) =
      some ⟨⟨tag, [], []⟩ :: stack, root, .content⟩ := by
  have hslash : ∀ rest, tag.chars ≠ '/' :: rest := by
    intro rest heq
    exact tag.not_mem (by decide : isNameChar '/' = false) (heq ▸ List.mem_cons_self)
  have hstart : (stack.isEmpty && root.isSome) = false := by
    cases hstack : stack with
    | nil => simp [hroot hstack]
    | cons => rfl
  rw [Reader.run_cons, Reader.step]
  simp only [if_true, Option.bind_some]
  rw [Reader.run_tag [] rfl tag.chars (tag.not_mem (by decide)) (tag.not_mem (by decide)),
    List.nil_append]
  unfold Reader.endTag
  split
  · next heq => exact absurd heq (hslash _)
  · rw [dif_pos tag.valid]
    simp [hstart]

theorem Reader.run_close (frame : Frame) (rest : List Frame) (root : Option Element) :
    Reader.run ⟨frame :: rest, root, .content⟩ ('<' :: '/' :: (frame.tag.chars ++ ['>'])) =
      some (complete rest root (.mk frame.tag frame.text frame.children)) := by
  have hopen : '<' ∉ '/' :: frame.tag.chars := by
    rw [List.mem_cons, not_or]
    exact ⟨by decide, frame.tag.not_mem (by decide)⟩
  have hclose : '>' ∉ '/' :: frame.tag.chars := by
    rw [List.mem_cons, not_or]
    exact ⟨by decide, frame.tag.not_mem (by decide)⟩
  rw [Reader.run_cons, Reader.step]
  simp only [if_true, Option.bind_some]
  rw [← List.cons_append, Reader.run_tag [] rfl _ hopen hclose, List.nil_append]
  unfold Reader.endTag
  simp only [if_true]

mutual
theorem Reader.run_print (stack : List Frame) (root : Option Element)
    (hroot : stack = [] → root = none) : ∀ e : Element,
    Reader.run ⟨stack, root, .content⟩ (print e) = some (complete stack root e)
  | .mk tag text children => by
    have hsplit : print (.mk tag text children) =
        ('<' :: (tag.chars ++ ['>'])) ++ (escape text ++ (printAll children ++
          ('<' :: '/' :: (tag.chars ++ ['>'])))) := by
      rw [print]
      simp
    have hchildren := Reader.run_printAll ⟨tag, text, []⟩ stack root children
    have hclose := Reader.run_close ⟨tag, text, children⟩ stack root
    rw [hsplit, Reader.run_append, Reader.run_open stack root hroot, Option.bind_some,
      Reader.run_append, Reader.run_escape _ _ _ rfl, Option.bind_some, Reader.run_append]
    simp only [List.nil_append]
    rw [hchildren, Option.bind_some]
    exact hclose

theorem Reader.run_printAll (frame : Frame) (rest : List Frame) (root : Option Element) :
    ∀ es : List Element, Reader.run ⟨frame :: rest, root, .content⟩ (printAll es) =
      some ⟨{ frame with children := frame.children ++ es } :: rest, root, .content⟩
  | [] => by
    rw [printAll, List.append_nil]
    rfl
  | e :: es => by
    have hfirst := Reader.run_print (frame :: rest) root nofun e
    have hrest := Reader.run_printAll { frame with children := frame.children ++ [e] } rest root es
    rw [printAll, Reader.run_append, hfirst, Option.bind_some]
    simp only [complete]
    rw [hrest]
    simp only [List.append_assoc, List.singleton_append]
end

/-! ## Line ends -/

theorem newlines_cons {c : Char} (h : c ≠ '\r') (cs : List Char) :
    newlines (c :: cs) = c :: newlines cs := by
  rw [newlines.eq_def]
  split
  · next heq => cases heq
  · next heq => exact absurd (List.cons.inj heq).1 h
  · next heq => exact absurd (List.cons.inj heq).1 h
  · next heq =>
    cases heq
    rfl

theorem newlines_return {cs : List Char} (h : cs.head? ≠ some '\n') :
    newlines ('\r' :: cs) = '\n' :: newlines cs := by
  rw [newlines.eq_def]
  split
  · next heq => cases heq
  · next heq =>
    obtain ⟨-, rfl⟩ := List.cons.inj heq
    exact absurd rfl h
  · next heq =>
    obtain ⟨-, rfl⟩ := List.cons.inj heq
    rfl
  · next hreturn heq => exact absurd (List.cons.inj heq).1.symm hreturn

theorem newlines_pair (cs : List Char) :
    newlines ('\r' :: '\n' :: cs) = '\n' :: newlines cs := rfl

/-- The line ends of a text, in the order of its characters. -/
theorem newlines_induction {P : List Char → Prop} (nil : P [])
    (pair : ∀ rest, P rest → P ('\r' :: '\n' :: rest))
    (single : ∀ rest, rest.head? ≠ some '\n' → P rest → P ('\r' :: rest))
    (other : ∀ c rest, c ≠ '\r' → P rest → P (c :: rest)) (cs : List Char) : P cs := by
  induction cs using newlines.induct with
  | case1 => exact nil
  | case2 rest ih => exact pair rest ih
  | case3 rest hrest ih =>
    refine single rest ?_ ih
    cases rest with
    | nil => nofun
    | cons c rest =>
      intro heq
      exact hrest rest (congrArg (· :: rest) (Option.some.inj heq))
  | case4 c rest _ hc ih => exact other c rest hc ih

/-- The texts do not part a line end. -/
theorem newlines_append {cs cs' : List Char}
    (h : cs.getLast? = some '\r' → cs'.head? ≠ some '\n') :
    newlines (cs ++ cs') = newlines cs ++ newlines cs' := by
  have hlast : ∀ {d : Char} {rest : List Char}, rest.getLast? = some '\r' →
      (d :: rest).getLast? = some '\r' := by
    intro d rest heq
    rw [List.getLast?_cons, heq]
    rfl
  induction cs using newlines_induction with
  | nil => rfl
  | pair rest ih =>
    rw [List.cons_append, List.cons_append, newlines_pair, newlines_pair, ih fun heq => h (hlast (hlast heq)),
      List.cons_append]
  | single rest hrest ih =>
    have happend : (rest ++ cs').head? ≠ some '\n' := by
      cases rest with
      | nil => exact h rfl
      | cons c rest => exact hrest
    rw [List.cons_append, newlines_return happend, newlines_return hrest, ih fun heq => h (hlast heq),
      List.cons_append]
  | other c rest hc ih =>
    rw [List.cons_append, newlines_cons hc, newlines_cons hc, ih fun heq => h (hlast heq),
      List.cons_append]

theorem mem_newlines {c : Char} {cs : List Char} (h : c ∈ newlines cs) : c ∈ cs ∨ c = '\n' := by
  induction cs using newlines_induction with
  | nil => cases h
  | pair rest ih =>
    rw [newlines_pair, List.mem_cons] at h
    rcases h with h | h
    · exact .inr h
    · exact (ih h).imp (fun hmem => List.mem_cons_of_mem _ (.tail _ hmem)) id
  | single rest hrest ih =>
    rw [newlines_return hrest, List.mem_cons] at h
    rcases h with h | h
    · exact .inr h
    · exact (ih h).imp (List.mem_cons_of_mem _) id
  | other d rest hd ih =>
    rw [newlines_cons hd, List.mem_cons] at h
    rcases h with rfl | h
    · exact .inl (.head _)
    · exact (ih h).imp (List.mem_cons_of_mem _) id

/-- A text without returns has the line ends that the parser reports. -/
theorem newlines_of_not_mem {cs : List Char} (h : '\r' ∉ cs) : newlines cs = cs := by
  induction cs with
  | nil => rfl
  | cons c cs ih =>
    have hc : c ≠ '\r' := fun heq => h (heq ▸ List.mem_cons_self)
    rw [newlines_cons hc, ih (fun hmem => h (.tail _ hmem))]

theorem not_mem_newlines (cs : List Char) : '\r' ∉ newlines cs := by
  induction cs using newlines_induction with
  | nil => exact List.not_mem_nil
  | pair rest ih =>
    rw [newlines_pair, List.mem_cons, not_or]
    exact ⟨by decide, ih⟩
  | single rest hrest ih =>
    rw [newlines_return hrest, List.mem_cons, not_or]
    exact ⟨by decide, ih⟩
  | other c rest hc ih =>
    rw [newlines_cons hc, List.mem_cons, not_or]
    exact ⟨fun heq => hc heq.symm, ih⟩

theorem newlines_eq_self_iff {cs : List Char} : newlines cs = cs ↔ '\r' ∉ cs := by
  constructor
  · intro h
    rw [← h]
    exact not_mem_newlines cs
  · exact newlines_of_not_mem

theorem escape_cons (c : Char) (text : List Char) : escape (c :: text) = escapeChar c ++ escape text :=
  rfl

/-- Escaping adds no return and does not hide one. -/
theorem not_mem_escapeChar {c : Char} (h : c ≠ '\r') : '\r' ∉ escapeChar c := by
  unfold escapeChar
  split
  · decide
  · split
    · decide
    · split
      · decide
      · rw [List.mem_singleton]
        exact h.symm

theorem head_escape {text : List Char} (h : text.head? ≠ some '\n') :
    (escape text).head? ≠ some '\n' := by
  cases text with
  | nil => nofun
  | cons c text =>
    have hc : c ≠ '\n' := fun heq => h (congrArg some heq)
    rw [escape_cons]
    unfold escapeChar
    split
    · simp
    · split
      · simp
      · split
        · simp
        · simpa using hc

theorem newlines_escape (text : List Char) : newlines (escape text) = escape (newlines text) := by
  induction text using newlines_induction with
  | nil => rfl
  | pair rest ih =>
    have hescape : escape ('\r' :: '\n' :: rest) = '\r' :: '\n' :: escape rest := rfl
    rw [hescape, newlines_pair, newlines_pair, ih]
    rfl
  | single rest hrest ih =>
    have hescape : escape ('\r' :: rest) = '\r' :: escape rest := rfl
    rw [hescape, newlines_return (head_escape hrest), newlines_return hrest, ih]
    rfl
  | other c rest hc ih =>
    have hchar : ∀ cs : List Char, '\r' ∉ cs → newlines (cs ++ escape rest) =
        cs ++ newlines (escape rest) := by
      intro cs hcs
      induction cs with
      | nil => rfl
      | cons d cs ihcs =>
        have hd : d ≠ '\r' := fun heq => hcs (heq ▸ List.mem_cons_self)
        rw [List.cons_append, newlines_cons hd, ihcs (fun h => hcs (.tail _ h)),
          List.cons_append]
    rw [escape_cons, hchar _ (not_mem_escapeChar hc), newlines_cons hc, escape_cons, ih]

mutual
/-- An element with the line ends that the parser reports. -/
def Element.normal : Element → Element
  | .mk tag text children => .mk tag (newlines text) (Element.normalAll children)

def Element.normalAll : List Element → List Element
  | [] => []
  | e :: rest => e.normal :: Element.normalAll rest
end

theorem Element.normalAll_eq_map (es : List Element) : normalAll es = es.map normal := by
  induction es with
  | nil => rfl
  | cons e es ih => rw [normalAll, ih, List.map_cons]

mutual
theorem newlines_print : ∀ e : Element, newlines (print e) = print e.normal
  | .mk tag text children => by
    have hname : '\r' ∉ tag.chars := tag.not_mem (by decide)
    have hchildren := newlines_printAll children
    have htag : ∀ tail : List Char, newlines (tag.chars ++ '>' :: tail) =
        tag.chars ++ '>' :: newlines tail := by
      intro tail
      rw [newlines_append (fun _ => by simp), newlines_of_not_mem hname, newlines_cons (by decide)]
    have hclosing : newlines ('<' :: '/' :: (tag.chars ++ ['>'])) =
        '<' :: '/' :: (tag.chars ++ ['>']) := by
      rw [newlines_cons (by decide), newlines_cons (by decide), htag]
      rfl
    have hinner : newlines (printAll children ++ '<' :: '/' :: (tag.chars ++ ['>'])) =
        printAll (Element.normalAll children) ++ '<' :: '/' :: (tag.chars ++ ['>']) := by
      rw [newlines_append (fun _ => by simp), hchildren, hclosing]
    have hhead : (printAll children ++ '<' :: '/' :: (tag.chars ++ ['>'])).head? ≠ some '\n' := by
      cases children with
      | nil => simp [printAll]
      | cons e es =>
        cases e with
        | mk tag' text' children' => simp [printAll, print]
    rw [print, newlines_cons (by decide), htag, newlines_append (fun _ => hhead), newlines_escape, hinner,
      Element.normal, print]

theorem newlines_printAll : ∀ es : List Element, newlines (printAll es) =
    printAll (Element.normalAll es)
  | [] => rfl
  | e :: es => by
    have hhead : (printAll es).head? ≠ some '\n' := by
      cases es with
      | nil => nofun
      | cons e' es' =>
        cases e' with
        | mk tag' text' children' => simp [printAll, print]
    rw [printAll, newlines_append (fun _ => hhead), newlines_print e, newlines_printAll es,
      Element.normalAll, printAll]
end

/-! ## The round trip -/

mutual
/-- Every text of the element consists of XML characters. -/
def Element.legal : Element → Bool
  | .mk _ text children => text.all isXmlChar && Element.legalAll children

def Element.legalAll : List Element → Bool
  | [] => true
  | e :: rest => e.legal && Element.legalAll rest
end

theorem Element.legalAll_eq_all (es : List Element) : legalAll es = es.all legal := by
  induction es with
  | nil => rfl
  | cons e es ih => rw [legalAll, ih, List.all_cons]

theorem isXmlChar_of_isNameChar {c : Char} (h : isNameChar c = true) : isXmlChar c = true := by
  unfold isNameChar at h
  unfold isXmlChar
  rw [Bool.or_eq_true, decide_eq_true_eq] at h
  rw [decide_eq_true_eq]
  have hcode : 0x20 ≤ c.toNat ∧ c.toNat < 0x2000 := by
    rcases h with h | rfl | rfl | rfl | h
    · have hranges : c.isAlphanum = (decide ('A'.val ≤ c.val ∧ c.val ≤ 'Z'.val) ||
          (decide ('a'.val ≤ c.val) && decide (c.val ≤ 'z'.val)) ||
            (decide ('0'.val ≤ c.val) && decide (c.val ≤ '9'.val))) := rfl
      rw [hranges] at h
      simp only [Bool.or_eq_true, Bool.and_eq_true, decide_eq_true_eq,
        UInt32.le_iff_toNat_le] at h
      have hnat : c.val.toNat = c.toNat := rfl
      rw [hnat] at h
      simp at h
      omega
    · decide
    · decide
    · decide
    · omega
  omega

theorem Name.all_isXmlChar (name : Name) : name.chars.all isXmlChar = true := by
  rw [List.all_eq_true]
  intro c hc
  exact isXmlChar_of_isNameChar (name.isNameChar_of_mem hc)

theorem all_escape (text : List Char) : (escape text).all isXmlChar = text.all isXmlChar := by
  induction text with
  | nil => rfl
  | cons c text ih =>
    have hchar : (escapeChar c).all isXmlChar = isXmlChar c := by
      unfold escapeChar
      split
      · next h => rw [h]; decide
      · split
        · next h => rw [h]; decide
        · split
          · next h => rw [h]; decide
          · rw [List.all_cons, List.all_nil, Bool.and_true]
    rw [escape_cons, List.all_append, hchar, ih, List.all_cons]

mutual
theorem all_print : ∀ e : Element, (print e).all isXmlChar = e.legal
  | .mk tag text children => by
    have hchildren := all_printAll children
    have hopen : isXmlChar '<' = true := by decide
    have hclose : isXmlChar '>' = true := by decide
    have hslash : isXmlChar '/' = true := by decide
    rw [print, Element.legal]
    simp only [List.all_cons, List.all_append, List.all_nil, tag.all_isXmlChar, all_escape,
      hchildren, hopen, hclose, hslash, Bool.true_and, Bool.and_true]

theorem all_printAll : ∀ es : List Element, (printAll es).all isXmlChar = Element.legalAll es
  | [] => rfl
  | e :: es => by
    rw [printAll, List.all_append, all_print e, all_printAll es, Element.legalAll]
end

/-- A printed element is well formed when its texts consist of XML characters, and is then the
element with its line ends normalised. -/
theorem parse_print (e : Element) : parse (print e) = if e.legal then some e.normal else none := by
  unfold parse
  rw [all_print, newlines_print]
  have hrun := Reader.run_print [] none (fun _ => rfl) e.normal
  split
  · rw [hrun]
    rfl
  · rfl

end AgentBack.Xml
