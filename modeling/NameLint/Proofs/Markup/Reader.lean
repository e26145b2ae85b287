import NameLint.Command.Output
import NameLint.Markup.Element

/-!
# Reading markup

A reader of documents of nested elements: it cuts the text into tags, reads each tag with its
attributes, resolves the references in their values, and puts the tags together. Between tags it
allows white space only. Whatever values an element holds, reading its document gives it back.
-/

namespace NameLint.Markup

open NameLint.Text NameLint.Command

set_option autoImplicit false

section Values

def references : List (String × Char) :=
  [("amp", '&'), ("lt", '<'), ("gt", '>'), ("apos", '\''), ("quot", '"')]

def referred? (name : String) : Option Char :=
  (references.find? (·.1 == name)).map (·.2)

/-- The value that stands between quotes, given what has been passed of a reference, last first. -/
def resolve : Option (List Char) → List Char → Option (List Char)
  | none, [] => some []
  | some _, [] => none
  | none, c :: rest =>
      if c = '&' then resolve (some []) rest else (resolve none rest).map (c :: ·)
  | some passed, c :: rest =>
      if c = ';' then
        (referred? (String.ofList passed.reverse)).bind fun meant =>
          (resolve none rest).map (meant :: ·)
      else resolve (some (c :: passed)) rest

theorem resolve_escapedChar (c : Char) (rest : List Char) :
    resolve none (escapedChar c ++ rest) = (resolve none rest).map (c :: ·) := by
  unfold escapedChar
  split
  · rfl
  · rfl
  · rfl
  · rfl
  · rfl
  · next plain _ _ _ _ => rw [List.singleton_append, resolve, if_neg plain]

theorem resolve_escape (value : String) :
    resolve none (escape value).toList = some value.toList := by
  rw [escape, String.toList_ofList]
  induction value.toList with
  | nil => rfl
  | cons c rest ih => rw [List.flatMap_cons, resolve_escapedChar, ih, Option.map_some]

/-- No escaped value holds a character that ends it or its tag. -/
theorem not_mem_escape {value : String} {c : Char} (member : c ∈ (escape value).toList) :
    c ≠ '<' ∧ c ≠ '"' := by
  rw [escape, String.toList_ofList, List.mem_flatMap] at member
  rcases member with ⟨plain, -, member⟩
  unfold escapedChar at member
  split at member
  case h_6 _ _ less _ _ quote =>
    rw [List.mem_singleton.1 member]
    exact ⟨less, quote⟩
  all_goals
    refine ⟨?_, ?_⟩ <;>
      · rintro rfl
        exact absurd member (by decide)

end Values

section Cutting

/-- Where a cut into tags stands, with what it has passed of a tag, last first. -/
inductive TagSpot where
  | outside
  | inside (passed : List Char)
  | quoted (quote : Char) (passed : List Char)

/-- What stands between the brackets of each tag. A bracket that closes a tag may also stand in a
value. -/
def cutTags : TagSpot → List Char → Option (List (List Char))
  | .outside, [] => some []
  | .inside _, [] => none
  | .quoted _ _, [] => none
  | .outside, c :: rest =>
      if c = '<' then cutTags (.inside []) rest
      else if c.isWhitespace then cutTags .outside rest
      else none
  | .inside passed, c :: rest =>
      if c = '>' then (cutTags .outside rest).map (passed.reverse :: ·)
      else if c = '<' then none
      else if c = '"' ∨ c = '\'' then cutTags (.quoted c (c :: passed)) rest
      else cutTags (.inside (c :: passed)) rest
  | .quoted quote passed, c :: rest =>
      if c = '<' then none
      else if c = quote then cutTags (.inside (c :: passed)) rest
      else cutTags (.quoted quote (c :: passed)) rest

/-- A cut inside a tag goes over the text and is inside the tag again. -/
def Passes (text : List Char) : Prop :=
  ∀ passed rest, cutTags (.inside passed) (text ++ rest) =
    cutTags (.inside (text.reverse ++ passed)) rest

theorem passes_nil : Passes [] :=
  fun _ _ => rfl

theorem Passes.append {first second : List Char} (one : Passes first) (other : Passes second) :
    Passes (first ++ second) := by
  intro passed rest
  rw [List.append_assoc, one, other, List.reverse_append, List.append_assoc]

theorem passes_of_plain {text : List Char}
    (plain : ∀ c ∈ text, c ≠ '>' ∧ c ≠ '<' ∧ c ≠ '"' ∧ c ≠ '\'') : Passes text := by
  induction text with
  | nil => exact passes_nil
  | cons c text ih =>
      intro passed rest
      obtain ⟨closing, opening, double, single⟩ := plain c List.mem_cons_self
      have later := ih fun other member => plain other (List.mem_cons_of_mem c member)
      rw [List.cons_append, cutTags, if_neg closing, if_neg opening,
        if_neg (not_or.2 ⟨double, single⟩), later, List.reverse_cons, List.append_assoc,
        List.singleton_append]

theorem cutTags_quoted {value : List Char} (plain : ∀ c ∈ value, c ≠ '<' ∧ c ≠ '"')
    (passed rest : List Char) : cutTags (.quoted '"' passed) (value ++ '"' :: rest) =
      cutTags (.inside ('"' :: (value.reverse ++ passed))) rest := by
  induction value generalizing passed with
  | nil => rfl
  | cons c value ih =>
      obtain ⟨opening, quote⟩ := plain c List.mem_cons_self
      rw [List.cons_append, cutTags, if_neg opening, if_neg quote,
        ih fun other member => plain other (List.mem_cons_of_mem c member), List.reverse_cons,
        List.append_assoc, List.singleton_append]

theorem passes_quoted {value : List Char} (plain : ∀ c ∈ value, c ≠ '<' ∧ c ≠ '"') :
    Passes ('"' :: (value ++ ['"'])) := by
  intro passed rest
  have opened : cutTags (.inside passed) ('"' :: (value ++ '"' :: rest)) =
      cutTags (.quoted '"' ('"' :: passed)) (value ++ '"' :: rest) := rfl
  rw [List.cons_append, List.append_assoc, List.singleton_append, opened, cutTags_quoted plain]
  simp

theorem cutTags_blanks {blanks : List Char} (blank : ∀ c ∈ blanks, c = ' ') (rest : List Char) :
    cutTags .outside (blanks ++ rest) = cutTags .outside rest := by
  induction blanks with
  | nil => rfl
  | cons c blanks ih =>
      rw [blank c List.mem_cons_self]
      exact ih fun other member => blank other (List.mem_cons_of_mem c member)

theorem cutTags_line {body : List Char} (passes : Passes body) (depth : Nat) (rest : List Char) :
    cutTags .outside ((indentation depth).toList ++ '<' :: (body ++ '>' :: '\n' :: rest)) =
      (cutTags .outside rest).map (body :: ·) := by
  have blank : ∀ c ∈ (indentation depth).toList, c = ' ' := by
    intro c member
    rw [indentation, repeated, String.toList_ofList] at member
    exact List.eq_of_mem_replicate member
  have opened : cutTags .outside ('<' :: (body ++ '>' :: '\n' :: rest)) =
      cutTags (.inside []) (body ++ '>' :: '\n' :: rest) := rfl
  have closed : cutTags (.inside body.reverse) ('>' :: '\n' :: rest) =
      (cutTags .outside ('\n' :: rest)).map (body.reverse.reverse :: ·) := rfl
  have broken : cutTags .outside ('\n' :: rest) = cutTags .outside rest := rfl
  rw [cutTags_blanks blank, opened, passes, List.append_nil, closed, broken, List.reverse_reverse]

end Cutting

section Tags

def isNameChar (c : Char) : Bool :=
  c.isAlphanum || c == '-' || c == '_' || c == '.' || c == ':'

def IsName (name : String) : Prop :=
  name.toList ≠ [] ∧ ∀ c ∈ name.toList, isNameChar c = true

instance (name : String) : Decidable (IsName name) :=
  @instDecidableAnd _ _ _ (List.decidableBAll ..)

theorem ne_of_isNameChar {c other : Char} (own : isNameChar c = true)
    (apart : isNameChar other = false) : c ≠ other := by
  rintro rfl
  rw [own] at apart
  cases apart

theorem IsName.passes {name : String} (named : IsName name) : Passes name.toList := by
  apply passes_of_plain
  intro c member
  have own := named.2 c member
  exact ⟨ne_of_isNameChar own (by decide), ne_of_isNameChar own (by decide),
    ne_of_isNameChar own (by decide), ne_of_isNameChar own (by decide)⟩

inductive Tag where
  | declaration
  | single (name : String) (attributes : List Attribute)
  | opening (name : String) (attributes : List Attribute)
  | closing (name : String)

/-- Where a reader of attributes stands: behind the name of the tag or a value, behind a blank, in a
name, behind the sign between name and value, or in a value. -/
inductive AttributeSpot where
  | behind
  | blank
  | name (passed : List Char)
  | sign (name : String)
  | value (name : String) (quote : Char) (passed : List Char)

/-- The attributes of a tag, and whether a slash ends it. -/
def readAttributes : AttributeSpot → List Char → Option (List Attribute × Bool)
  | .behind, [] => some ([], false)
  | .blank, [] => some ([], false)
  | .name _, [] => none
  | .sign _, [] => none
  | .value _ _ _, [] => none
  | .behind, c :: rest =>
      if c = '/' then if rest = [] then some ([], true) else none
      else if c.isWhitespace then readAttributes .blank rest
      else none
  | .blank, c :: rest =>
      if c = '/' then if rest = [] then some ([], true) else none
      else if c.isWhitespace then readAttributes .blank rest
      else if isNameChar c then readAttributes (.name [c]) rest
      else none
  | .name passed, c :: rest =>
      if c = '=' then readAttributes (.sign (String.ofList passed.reverse)) rest
      else if isNameChar c then readAttributes (.name (c :: passed)) rest
      else none
  | .sign name, c :: rest =>
      if c = '"' ∨ c = '\'' then readAttributes (.value name c []) rest else none
  | .value name quote passed, c :: rest =>
      if c = quote then
        (resolve none passed.reverse).bind fun value =>
          (readAttributes .behind rest).map fun read =>
            (⟨name, String.ofList value⟩ :: read.1, read.2)
      else readAttributes (.value name quote (c :: passed)) rest

theorem readAttributes_name {letters : List Char} (named : ∀ c ∈ letters, isNameChar c = true)
    (passed rest : List Char) : readAttributes (.name passed) (letters ++ '=' :: rest) =
      readAttributes (.sign (String.ofList (passed.reverse ++ letters))) rest := by
  induction letters generalizing passed with
  | nil => simp [readAttributes]
  | cons c letters ih =>
      have own := named c List.mem_cons_self
      rw [List.cons_append, readAttributes, if_neg (ne_of_isNameChar own (by decide)), if_pos own,
        ih fun other member => named other (List.mem_cons_of_mem c member), List.reverse_cons,
        List.append_assoc, List.singleton_append]

theorem readAttributes_value {value : List Char} (plain : ∀ c ∈ value, c ≠ '"') (name : String)
    (passed rest : List Char) :
    readAttributes (.value name '"' passed) (value ++ '"' :: rest) =
      (resolve none (passed.reverse ++ value)).bind fun value =>
        (readAttributes .behind rest).map fun read =>
          (⟨name, String.ofList value⟩ :: read.1, read.2) := by
  induction value generalizing passed with
  | nil => simp [readAttributes]
  | cons c value ih =>
      rw [List.cons_append, readAttributes, if_neg (plain c List.mem_cons_self),
        ih fun other member => plain other (List.mem_cons_of_mem c member), List.reverse_cons,
        List.append_assoc, List.singleton_append]

theorem Attribute.toList_render (pair : Attribute) : pair.render.toList =
    ' ' :: (pair.name.toList ++ '=' :: '"' :: ((escape pair.value).toList ++ ['"'])) := by
  simp [Attribute.render]

theorem not_isWhitespace_of_isNameChar {c : Char} (own : isNameChar c = true) :
    ¬ c.isWhitespace = true := by
  intro blank
  rw [Char.isWhitespace] at blank
  simp only [Bool.or_eq_true, decide_eq_true_eq] at blank
  rcases blank with ((rfl | rfl) | rfl) | rfl <;> exact absurd own (by decide)

theorem readAttributes_render {pair : Attribute} (named : IsName pair.name) (rest : List Char) :
    readAttributes .behind (pair.render.toList ++ rest) =
      (readAttributes .behind rest).map fun read => (pair :: read.1, read.2) := by
  obtain ⟨filled, letters⟩ := named
  obtain ⟨c, others, shape⟩ := List.exists_cons_of_ne_nil filled
  rw [shape] at letters
  have own : isNameChar c = true := letters c List.mem_cons_self
  have spaced (text : List Char) :
      readAttributes .behind (' ' :: text) = readAttributes .blank text := rfl
  have signed (name : String) (text : List Char) :
      readAttributes (.sign name) ('"' :: text) = readAttributes (.value name '"' []) text := rfl
  have started (text : List Char) :
      readAttributes .blank (c :: text) = readAttributes (.name [c]) text := by
    rw [readAttributes, if_neg (ne_of_isNameChar own (by decide)),
      if_neg (not_isWhitespace_of_isNameChar own), if_pos own]
  have name : String.ofList ([c].reverse ++ others) = pair.name := by
    rw [List.reverse_singleton, List.singleton_append, ← shape, String.ofList_toList]
  have plain : ∀ c ∈ (escape pair.value).toList, c ≠ '"' := fun c member =>
    (not_mem_escape member).2
  rw [Attribute.toList_render, shape, List.cons_append, spaced, List.append_assoc, List.cons_append,
    started, List.cons_append,
    readAttributes_name (fun other member => letters other (List.mem_cons_of_mem c member)), name,
    List.cons_append, signed, List.append_assoc, List.singleton_append, readAttributes_value plain,
    List.reverse_nil, List.nil_append, resolve_escape, Option.bind_some, String.ofList_toList]

def attributesText (attributes : List Attribute) : List Char :=
  attributes.flatMap fun pair => pair.render.toList

theorem readAttributes_attributesText {attributes : List Attribute}
    (named : ∀ pair ∈ attributes, IsName pair.name) (rest : List Char) :
    readAttributes .behind (attributesText attributes ++ rest) =
      (readAttributes .behind rest).map fun read => (attributes ++ read.1, read.2) := by
  induction attributes with
  | nil => simp [attributesText]
  | cons pair attributes ih =>
      have later := ih fun other member => named other (List.mem_cons_of_mem pair member)
      rw [attributesText, List.flatMap_cons, List.append_assoc,
        readAttributes_render (named pair List.mem_cons_self)]
      rw [attributesText] at later
      rw [later, Option.map_map]
      rfl

theorem passes_attributesText {attributes : List Attribute}
    (named : ∀ pair ∈ attributes, IsName pair.name) : Passes (attributesText attributes) := by
  induction attributes with
  | nil => exact passes_nil
  | cons pair attributes ih =>
      have later := ih fun other member => named other (List.mem_cons_of_mem pair member)
      have blank : Passes [' '] := passes_of_plain (by simp)
      have sign : Passes ['='] := passes_of_plain (by simp)
      have value : Passes ('"' :: ((escape pair.value).toList ++ ['"'])) :=
        passes_quoted fun c member => not_mem_escape member
      have name := (named pair List.mem_cons_self).passes
      have own := blank.append (name.append (sign.append value))
      rw [attributesText, List.flatMap_cons, Attribute.toList_render]
      exact own.append later

def Tag.body : Tag → List Char
  | .declaration => "?xml version=\"1.0\" encoding=\"utf-8\"?".toList
  | .single name attributes => name.toList ++ (attributesText attributes ++ ['/'])
  | .opening name attributes => name.toList ++ attributesText attributes
  | .closing name => '/' :: name.toList

theorem Tag.body_single (name : String) (attributes : List Attribute) :
    (Tag.single name attributes).body = name.toList ++ (attributesText attributes ++ ['/']) :=
  rfl

theorem Tag.body_opening (name : String) (attributes : List Attribute) :
    (Tag.opening name attributes).body = name.toList ++ attributesText attributes :=
  rfl

theorem Tag.body_closing (name : String) : (Tag.closing name).body = '/' :: name.toList :=
  rfl

def readTag (body : List Char) : Option Tag :=
  if body.head? = some '?' then
    if body.getLast? = some '?' then some .declaration else none
  else if body.head? = some '/' then
    let name := String.ofList body.tail
    if IsName name then some (.closing name) else none
  else
    let name := String.ofList (body.takeWhile isNameChar)
    if IsName name then
      (readAttributes .behind (body.dropWhile isNameChar)).map fun read =>
        if read.2 then .single name read.1 else .opening name read.1
    else none

def Tag.IsNamed : Tag → Prop
  | .declaration => True
  | .single name attributes => IsName name ∧ ∀ pair ∈ attributes, IsName pair.name
  | .opening name attributes => IsName name ∧ ∀ pair ∈ attributes, IsName pair.name
  | .closing name => IsName name

theorem Tag.IsNamed.passes {tag : Tag} (named : tag.IsNamed) : Passes tag.body := by
  cases tag with
  | declaration => exact fun _ _ => rfl
  | single name attributes =>
      have slash : Passes ['/'] := passes_of_plain (by simp)
      exact named.1.passes.append ((passes_attributesText named.2).append slash)
  | opening name attributes => exact named.1.passes.append (passes_attributesText named.2)
  | closing name =>
      have slash : Passes ['/'] := passes_of_plain (by simp)
      exact slash.append (IsName.passes named)

theorem readTag_name {name : String} (named : IsName name) {text : List Char}
    (ends : ∀ c ∈ text.head?, isNameChar c = false) :
    readTag (name.toList ++ text) = (readAttributes .behind text).map fun read =>
      if read.2 then .single name read.1 else .opening name read.1 := by
  obtain ⟨c, others, shape⟩ := List.exists_cons_of_ne_nil named.1
  have own : isNameChar c = true := named.2 c (by simp [shape])
  have head : (name.toList ++ text).head? = some c := by rw [shape]; rfl
  have asks : c ≠ '?' := ne_of_isNameChar own (by decide)
  have slash : c ≠ '/' := ne_of_isNameChar own (by decide)
  have stop : text.takeWhile isNameChar = [] ∧ text.dropWhile isNameChar = text := by
    cases text with
    | nil => exact ⟨rfl, rfl⟩
    | cons other rest => simp [ends other rfl]
  have taken : (name.toList ++ text).takeWhile isNameChar = name.toList := by
    rw [List.takeWhile_append_of_pos named.2, stop.1, List.append_nil]
  have left : (name.toList ++ text).dropWhile isNameChar = text := by
    rw [List.dropWhile_append_of_pos named.2, stop.2]
  rw [readTag, head, if_neg (by simpa using asks), if_neg (by simpa using slash), taken, left,
    String.ofList_toList, if_pos named]

theorem head_attributesText (attributes : List Attribute) (rest : List Char)
    (ends : ∀ c ∈ rest.head?, isNameChar c = false) :
    ∀ c ∈ (attributesText attributes ++ rest).head?, isNameChar c = false := by
  cases attributes with
  | nil => exact ends
  | cons pair attributes =>
      intro c member
      rw [attributesText, List.flatMap_cons, Attribute.toList_render] at member
      cases member
      rfl

theorem readTag_body {tag : Tag} (named : tag.IsNamed) : readTag tag.body = some tag := by
  cases tag with
  | declaration => rfl
  | single name attributes =>
      have ends := head_attributesText attributes ['/'] (by simp; decide)
      rw [Tag.body_single, readTag_name named.1 ends, readAttributes_attributesText named.2]
      simp [readAttributes]
  | opening name attributes =>
      have ends := head_attributesText attributes [] (by simp)
      rw [Tag.body_opening, ← List.append_nil (attributesText attributes),
        readTag_name named.1 ends,
        readAttributes_attributesText named.2]
      simp [readAttributes]
  | closing name =>
      have own : IsName name := named
      have asks : ('/' :: name.toList).head? ≠ some '?' := by simp
      have slash : ('/' :: name.toList).head? = some '/' := rfl
      rw [Tag.body_closing, readTag, if_neg asks, if_pos slash]
      simp only [List.tail_cons, String.ofList_toList, if_pos own]

end Tags

section Documents

mutual

def Element.tags : Element → List Tag
  | .leaf name attributes => [.single name attributes]
  | .block name attributes children =>
      .opening name attributes :: (tagsOfAll children ++ [.closing name])

def tagsOfAll : List Element → List Tag
  | [] => []
  | element :: rest => element.tags ++ tagsOfAll rest

end

inductive Element.IsNamed : Element → Prop
  | leaf {name : String} {attributes : List Attribute} (own : IsName name)
      (fields : ∀ pair ∈ attributes, IsName pair.name) : IsNamed (.leaf name attributes)
  | block {name : String} {attributes : List Attribute} {children : List Element}
      (own : IsName name) (fields : ∀ pair ∈ attributes, IsName pair.name)
      (below : ∀ child ∈ children, IsNamed child) : IsNamed (.block name attributes children)

theorem tagsOfAll_eq (elements : List Element) :
    tagsOfAll elements = elements.flatMap Element.tags := by
  induction elements with
  | nil => rfl
  | cons element rest ih => rw [tagsOfAll, ih, List.flatMap_cons]

theorem Element.IsNamed.tags {element : Element} (named : element.IsNamed) :
    ∀ tag ∈ element.tags, tag.IsNamed := by
  induction named with
  | leaf own fields =>
      intro tag member
      rw [Element.tags, List.mem_singleton] at member
      rw [member]
      exact ⟨own, fields⟩
  | block own fields below ih =>
      intro tag member
      rw [Element.tags, tagsOfAll_eq, List.mem_cons, List.mem_append, List.mem_flatMap,
        List.mem_singleton] at member
      rcases member with rfl | ⟨child, listed, inner⟩ | rfl
      · exact ⟨own, fields⟩
      · exact ih child listed tag inner
      · exact own

def textOf (lines : List String) : List Char :=
  lines.flatMap fun line => line.toList ++ ['\n']

theorem toList_joinLines (lines : List String) : (joinLines lines).toList = textOf lines := by
  simp [joinLines, textOf, String.toList_join, List.flatMap_map]

theorem textOf_append (first second : List String) :
    textOf (first ++ second) = textOf first ++ textOf second :=
  List.flatMap_append

theorem cutTags_textOf_tag {tag : Tag} (named : tag.IsNamed) {line : String} {depth : Nat}
    (shape : line.toList = (indentation depth).toList ++ '<' :: (tag.body ++ ['>']))
    (rest : List Char) : cutTags .outside (textOf [line] ++ rest) =
      (cutTags .outside rest).map (tag.body :: ·) := by
  rw [← cutTags_line named.passes depth rest, textOf, List.flatMap_singleton, shape]
  simp

theorem toList_tag (name : String) (attributes : List Attribute) (close : String) :
    (tag name attributes close).toList =
      '<' :: (name.toList ++ (attributesText attributes ++ close.toList)) := by
  simp [tag, attributesText, String.toList_join, List.flatMap_map]

theorem toList_singleTag (name : String) (attributes : List Attribute) (depth : Nat) :
    (indentation depth ++ tag name attributes "/>").toList =
      (indentation depth).toList ++ '<' :: ((Tag.single name attributes).body ++ ['>']) := by
  rw [String.toList_append, toList_tag, Tag.body_single]
  simp

theorem toList_openingTag (name : String) (attributes : List Attribute) (depth : Nat) :
    (indentation depth ++ tag name attributes ">").toList =
      (indentation depth).toList ++ '<' :: ((Tag.opening name attributes).body ++ ['>']) := by
  rw [String.toList_append, toList_tag, Tag.body_opening]
  simp

theorem toList_closingTag (name : String) (depth : Nat) :
    (indentation depth ++ "</" ++ name ++ ">").toList =
      (indentation depth).toList ++ '<' :: ((Tag.closing name).body ++ ['>']) := by
  rw [Tag.body_closing]
  simp

/-- However deep the element stands, its lines are cut into its tags. -/
def CutsIntoTags (element : Element) : Prop :=
  ∀ depth rest, cutTags .outside (textOf (element.lines depth) ++ rest) =
    (cutTags .outside rest).map (element.tags.map Tag.body ++ ·)

theorem cutTags_linesOfAll {elements : List Element}
    (each : ∀ element ∈ elements, CutsIntoTags element) (depth : Nat) (rest : List Char) :
    cutTags .outside (textOf (linesOfAll depth elements) ++ rest) =
      (cutTags .outside rest).map ((tagsOfAll elements).map Tag.body ++ ·) := by
  induction elements with
  | nil => simp [linesOfAll, tagsOfAll, textOf]
  | cons element elements ih =>
      have later := ih fun other member => each other (List.mem_cons_of_mem element member)
      rw [linesOfAll, textOf_append, List.append_assoc, each element List.mem_cons_self, later,
        Option.map_map, tagsOfAll, List.map_append]
      congr 1
      funext bodies
      rw [Function.comp_apply, List.append_assoc]

theorem cutsIntoTags {element : Element} (named : element.IsNamed) : CutsIntoTags element := by
  induction named with
  | @leaf name attributes own fields =>
      intro depth rest
      have tagged : (Tag.single name attributes).IsNamed := ⟨own, fields⟩
      rw [Element.lines, cutTags_textOf_tag tagged (toList_singleTag name attributes depth),
        Element.tags, List.map_singleton]
      rfl
  | @block name attributes children own fields below ih =>
      intro depth rest
      have opened : (Tag.opening name attributes).IsNamed := ⟨own, fields⟩
      have closed : (Tag.closing name).IsNamed := own
      rw [Element.lines, ← List.singleton_append, textOf_append, textOf_append, List.append_assoc,
        List.append_assoc, cutTags_textOf_tag opened (toList_openingTag name attributes depth),
        cutTags_linesOfAll ih, cutTags_textOf_tag closed (toList_closingTag name depth),
        Option.map_map, Option.map_map, Element.tags]
      congr 1
      funext bodies
      simp

/-- An element whose children are still to come, with the siblings before it, last first. -/
structure Frame where
  name : String
  attributes : List Attribute
  before : List Element

/-- Puts tags together. Behind the siblings read so far, last first, stand the frames around them,
inmost first. -/
def nest : List Element → List Frame → List Tag → Option (List Element)
  | siblings, [], [] => some siblings.reverse
  | _, _ :: _, [] => none
  | _, _, .declaration :: _ => none
  | siblings, frames, .single name attributes :: rest =>
      nest (.leaf name attributes :: siblings) frames rest
  | siblings, frames, .opening name attributes :: rest =>
      nest [] (⟨name, attributes, siblings⟩ :: frames) rest
  | _, [], .closing _ :: _ => none
  | siblings, frame :: frames, .closing name :: rest =>
      if name = frame.name then
        nest (.block name frame.attributes siblings.reverse :: frame.before) frames rest
      else none

/-- Among any tags, those of the element are put together to the element. -/
def NestsTo (element : Element) : Prop :=
  ∀ siblings frames rest,
    nest siblings frames (element.tags ++ rest) = nest (element :: siblings) frames rest

theorem nest_tagsOfAll {elements : List Element} (each : ∀ element ∈ elements, NestsTo element)
    (siblings : List Element) (frames : List Frame) (rest : List Tag) :
    nest siblings frames (tagsOfAll elements ++ rest) =
      nest (elements.reverse ++ siblings) frames rest := by
  induction elements generalizing siblings with
  | nil => rfl
  | cons element elements ih =>
      rw [tagsOfAll, List.append_assoc, each element List.mem_cons_self,
        ih fun other member => each other (List.mem_cons_of_mem element member), List.reverse_cons,
        List.append_assoc, List.singleton_append]

theorem nestsTo {element : Element} (named : element.IsNamed) : NestsTo element := by
  induction named with
  | leaf own fields =>
      intro siblings frames rest
      rw [Element.tags, List.singleton_append, nest]
  | block own fields below ih =>
      intro siblings frames rest
      rw [Element.tags, List.cons_append, nest, List.append_assoc, nest_tagsOfAll ih,
        List.append_nil, List.singleton_append, nest, if_pos rfl, List.reverse_reverse]

theorem mapM_readTag {tags : List Tag} (named : ∀ tag ∈ tags, tag.IsNamed) :
    (tags.map Tag.body).mapM readTag = some tags := by
  induction tags with
  | nil => rfl
  | cons tag tags ih =>
      have later := ih fun other member => named other (List.mem_cons_of_mem tag member)
      rw [List.map_cons, List.mapM_cons, readTag_body (named tag List.mem_cons_self), later]
      rfl

def readDocument (text : String) : Option Element := do
  let tags ← (← cutTags .outside text.toList).mapM readTag
  let body := match tags with
    | .declaration :: rest => rest
    | all => all
  match ← nest [] [] body with
  | [root] => some root
  | _ => none

theorem readDocument_documentLines {root : Element} (named : root.IsNamed) :
    readDocument (joinLines (documentLines root)) = some root := by
  have shape : declaration.toList =
      (indentation 0).toList ++ '<' :: (Tag.declaration.body ++ ['>']) := rfl
  have own : Tag.declaration.IsNamed := trivial
  have cut : cutTags .outside (joinLines (documentLines root)).toList =
      some ((Tag.declaration :: root.tags).map Tag.body) := by
    rw [toList_joinLines, documentLines, ← List.singleton_append, textOf_append,
      cutTags_textOf_tag own shape, ← List.append_nil (textOf _),
      cutsIntoTags named]
    simp [cutTags]
  have tagged : ∀ tag ∈ Tag.declaration :: root.tags, tag.IsNamed := by
    intro tag member
    rcases List.mem_cons.1 member with rfl | inner
    · trivial
    · exact named.tags tag inner
  have nested : nest [] [] root.tags = some [root] := by
    rw [← List.append_nil root.tags, nestsTo named]
    rfl
  simp only [readDocument, cut, Option.bind_eq_bind, Option.bind_some, mapM_readTag tagged, nested]

end Documents

end NameLint.Markup
