import SourceAudit.Proofs.Markup.Grammar

/-!
# Reading documents

A reader goes through a document one character at a time. It cuts the text at its markup into
tokens and puts what stands between an opening tag and the closing tag of the same name inside an
element. Over a rendered document it comes back with the elements that were rendered, and what
stands between two elements is white space.

    root.Named → document? (document root) = some (root.item 0)               (document?_document)
    the elements in a group are read as the elements in its item            (elements_item_group)
-/

namespace SourceAudit.Markup

/-! ## Algorithm -/

/-- A name and attributes, with the values as they are written. -/
structure Tag where
  name : Text
  attributes : List (Text × Text)

/-- A part of a document that was read. -/
inductive Item
  | element (tag : Tag) (inside : List Item)
  | data (t : Text)
  | instruction (t : Text)

inductive Token
  | data (t : Text)
  | instruction (t : Text)
  | opening (tag : Tag)
  | closing (name : Text)
  | void (tag : Tag)

/-- What a reader is in the middle of, with what it has read of it. -/
inductive Mode
  | data (read : Text)
  /-- Behind the `<` of a tag. -/
  | opened
  | name (read : Text)
  | closing (read : Text)
  | instruction (read : Text)
  /-- Behind white space in a tag. -/
  | space (tag : Tag)
  | attributeName (tag : Tag) (read : Text)
  | equals (tag : Tag) (key : Text)
  | value (tag : Tag) (key : Text) (quote : Char) (read : Text)
  /-- Behind the value of an attribute. -/
  | valued (tag : Tag)
  /-- Behind the `/` of an empty tag. -/
  | void (tag : Tag)

namespace Mode

/-- White space or the end of a tag, behind its name or a value. -/
def behind? (tag : Tag) (c : Char) : Option (Mode × Option Token) :=
  if isSpace c then some (.space tag, none)
  else if c = '/' then some (.void tag, none)
  else if c = '>' then some (.data [], some (.opening tag))
  else none

/-- One character further, and the token that ends with it. -/
def next? : Mode → Char → Option (Mode × Option Token)
  | .data read, c =>
    if c = '<' then some (.opened, some (.data read)) else some (.data (read ++ [c]), none)
  | .opened, c =>
    if isNameStart c then some (.name [c], none)
    else if c = '/' then some (.closing [], none)
    else if c = '?' then some (.instruction [], none)
    else none
  | .name read, c =>
    if isNameChar c then some (.name (read ++ [c]), none) else behind? ⟨read, []⟩ c
  | .closing read, c =>
    if isNameChar c then some (.closing (read ++ [c]), none)
    else if c = '>' then some (.data [], some (.closing read))
    else none
  | .instruction read, c =>
    if c = '>' ∧ read.getLast? = some '?' then
      some (.data [], some (.instruction read.dropLast))
    else some (.instruction (read ++ [c]), none)
  | .space tag, c => if isNameStart c then some (.attributeName tag [c], none) else behind? tag c
  | .attributeName tag read, c =>
    if isNameChar c then some (.attributeName tag (read ++ [c]), none)
    else if c = '=' then some (.equals tag read, none)
    else none
  | .equals tag key, c =>
    if c = '"' ∨ c = '\'' then some (.value tag key c [], none) else none
  | .value tag key quote read, c =>
    if c = quote then some (.valued ⟨tag.name, tag.attributes ++ [(key, read)]⟩, none)
    else if c = '<' then none
    else some (.value tag key quote (read ++ [c]), none)
  | .valued tag, c => behind? tag c
  | .void tag, c => if c = '>' then some (.data [], some (.void tag)) else none

end Mode

structure Reader where
  mode : Mode
  /-- The tags that wait for their closing tag, the innermost first, with the items before each. -/
  opened : List (Tag × List Item)
  /-- The items behind the innermost of them. -/
  items : List Item

namespace Reader

/-- Put a token in its place. A closing tag closes the element that was opened last. -/
def put? (r : Reader) : Token → Option Reader
  | .data t => some { r with items := r.items ++ [.data t] }
  | .instruction t => some { r with items := r.items ++ [.instruction t] }
  | .void tag => some { r with items := r.items ++ [.element tag []] }
  | .opening tag => some { r with opened := (tag, r.items) :: r.opened, items := [] }
  | .closing name =>
    match r.opened with
    | [] => none
    | (tag, before) :: opened =>
      if tag.name = name then
        some { r with opened := opened, items := before ++ [.element tag r.items] }
      else none

def step? (r : Reader) (c : Char) : Option Reader :=
  match r.mode.next? c with
  | none => none
  | some (mode, none) => some { r with mode := mode }
  | some (mode, some token) => put? { r with mode := mode } token

end Reader

namespace Item

def isElement : Item → Bool
  | .element .. => true
  | _ => false

def isInstruction : Item → Bool
  | .instruction _ => true
  | _ => false

/-- White space between elements. -/
def isLayout : Item → Bool
  | .data t => t.all isSpace
  | _ => false

def inside : Item → List Item
  | .element _ inside => inside
  | _ => []

/-- The elements inside an element. -/
def elements (item : Item) : List Item := item.inside.filter isElement

def name? : Item → Option Text
  | .element tag _ => some tag.name
  | _ => none

/-- The value of an attribute, with characters in the place of entities. -/
def attribute? (name : Text) : Item → Option Text
  | .element tag _ => (tag.attributes.lookup name).map decode
  | _ => none

/-- The text of an element that has nothing else inside. -/
def text? : Item → Option Text
  | .element _ [.data t] => some (decode t)
  | _ => none

end Item

/-- The one element of a document, if around it are only white space and instructions. -/
def rootOf? (items : List Item) : Option Item :=
  match items.filter Item.isElement with
  | [root] =>
    if items.all fun item => item.isElement || item.isInstruction || item.isLayout then some root
    else none
  | _ => none

/-- The root of a document. -/
def document? (t : Text) : Option Item :=
  match t.foldlM Reader.step? ⟨.data [], [], []⟩ with
  | some ⟨.data read, [], items⟩ => rootOf? (items ++ [.data read])
  | _ => none

/-! ## What is read of an element -/

def writtenAttributes (attributes : List Attribute) : List (Text × Text) :=
  attributes.map fun a => (a.name, encode a.value)

mutual

/-- The item that an element is read as. -/
def Element.item (depth : Nat) : Element → Item
  | .group name attributes children =>
    .element ⟨name, writtenAttributes attributes⟩
      (itemsOf (depth + 1) children ++ [.data ("\n" ++ indent depth)])
  | .leaf name attributes content =>
    .element ⟨name, writtenAttributes attributes⟩ [.data (encode content)]
  | .void name attributes => .element ⟨name, writtenAttributes attributes⟩ []

/-- Several elements, each with what stands before it. -/
def itemsOf (depth : Nat) : List Element → List Item
  | [] => []
  | e :: rest => .data ("\n" ++ indent depth) :: e.item depth :: itemsOf depth rest

end

/-! ## Steps -/

/-- From one state to another over a text. -/
def Reads (r : Reader) (t : Text) (r' : Reader) : Prop := t.foldlM Reader.step? r = some r'

theorem Reads.nil (r : Reader) : Reads r [] r := rfl

theorem Reads.append {r r' r'' : Reader} {s t : Text} (hs : Reads r s r') (ht : Reads r' t r'') :
    Reads r (s ++ t) r'' := by
  rw [Reads, List.foldlM_append, hs]
  exact ht

theorem Reads.cons {r r' r'' : Reader} {c : Char} {t : Text} (hc : Reads r [c] r')
    (ht : Reads r' t r'') : Reads r (c :: t) r'' :=
  hc.append ht

variable {mode mode' : Mode} {opened : List (Tag × List Item)} {items : List Item} {tag : Tag}

theorem reads_of_next {c : Char} (h : mode.next? c = some (mode', none)) :
    Reads ⟨mode, opened, items⟩ [c] ⟨mode', opened, items⟩ := by
  simp [Reads, Reader.step?, h]

theorem reads_of_token {c : Char} {token : Token} {r : Reader}
    (h : mode.next? c = some (mode', some token))
    (put : Reader.put? ⟨mode', opened, items⟩ token = some r) :
    Reads ⟨mode, opened, items⟩ [c] r := by
  simp [Reads, Reader.step?, h, put]

/-- Characters that a mode only gathers. -/
theorem reads_gathered (gather : Text → Mode) {t : Text}
    (h : ∀ c ∈ t, ∀ read, (gather read).next? c = some (gather (read ++ [c]), none))
    (read : Text) : Reads ⟨gather read, opened, items⟩ t ⟨gather (read ++ t), opened, items⟩ := by
  induction t generalizing read with
  | nil =>
    rw [List.append_nil]
    exact .nil _
  | cons c rest ih =>
    rw [List.forall_mem_cons] at h
    have hrest := ih h.2 (read ++ [c])
    rw [List.append_assoc, List.singleton_append] at hrest
    exact (reads_of_next (h.1 read)).cons hrest

/-! ## Tags -/

theorem reads_name {gather : Text → Mode} {name : Text} (h : isName name = true)
    (first : ∀ c, isNameStart c = true → mode.next? c = some (gather [c], none))
    (more : ∀ c, isNameChar c = true → ∀ read,
      (gather read).next? c = some (gather (read ++ [c]), none)) :
    Reads ⟨mode, opened, items⟩ name ⟨gather name, opened, items⟩ := by
  cases name with
  | nil => cases h
  | cons c rest =>
    rw [isName, Bool.and_eq_true, List.all_eq_true] at h
    exact (reads_of_next (first c h.1)).cons
      (reads_gathered gather (fun d hd read => more d (h.2 d hd) read) [c])

/-- A mode in which white space or the end of a tag can come. -/
def Mode.Behind (mode : Mode) (tag : Tag) : Prop :=
  ∀ c, isNameChar c = false → mode.next? c = Mode.behind? tag c

theorem behind_valued (tag : Tag) : (Mode.valued tag).Behind tag := fun _ _ => rfl

theorem behind_name (name : Text) : (Mode.name name).Behind ⟨name, []⟩ := by
  intro c hc
  rw [Mode.next?, hc]
  rfl

theorem reads_attribute (behind : mode.Behind tag) (a : Attribute) (h : isName a.name = true) :
    Reads ⟨mode, opened, items⟩ a.render
      ⟨.valued ⟨tag.name, tag.attributes ++ [(a.name, encode a.value)]⟩, opened, items⟩ := by
  have hspace : Reads ⟨mode, opened, items⟩ " " ⟨.space tag, opened, items⟩ :=
    reads_of_next (behind ' ' (by decide))
  have hname : Reads ⟨.space tag, opened, items⟩ a.name
      ⟨.attributeName tag a.name, opened, items⟩ :=
    reads_name h (fun c hc => by rw [Mode.next?, if_pos hc])
      (fun c hc read => by rw [Mode.next?, if_pos hc])
  have hquote : Reads ⟨.attributeName tag a.name, opened, items⟩ "=\""
      ⟨.value tag a.name '"' [], opened, items⟩ :=
    (reads_of_next rfl).cons (reads_of_next rfl)
  have hvalue : Reads ⟨.value tag a.name '"' [], opened, items⟩ (encode a.value)
      ⟨.value tag a.name '"' (encode a.value), opened, items⟩ := by
    refine reads_gathered (.value tag a.name '"') (fun c hc read => ?_) []
    have hplain := isPlain_of_mem_encode hc
    rw [Mode.next?, if_neg, if_neg]
    · rintro rfl
      cases hplain
    · rintro rfl
      cases hplain
  have hend : Reads ⟨.value tag a.name '"' (encode a.value), opened, items⟩ "\""
      ⟨.valued ⟨tag.name, tag.attributes ++ [(a.name, encode a.value)]⟩, opened, items⟩ :=
    reads_of_next rfl
  exact (((hspace.append hname).append hquote).append hvalue).append hend

theorem reads_attributes (behind : mode.Behind tag) {attributes : List Attribute}
    (h : ∀ a ∈ attributes, isName a.name = true) :
    ∃ mode', Mode.Behind mode' ⟨tag.name, tag.attributes ++ writtenAttributes attributes⟩ ∧
      Reads ⟨mode, opened, items⟩ (attributes.flatMap Attribute.render)
        ⟨mode', opened, items⟩ := by
  induction attributes generalizing mode tag with
  | nil =>
    refine ⟨mode, ?_, .nil _⟩
    rw [writtenAttributes, List.map_nil, List.append_nil]
    exact behind
  | cons a rest ih =>
    rw [List.forall_mem_cons] at h
    obtain ⟨mode', hbehind, hrest⟩ :=
      ih (behind_valued ⟨tag.name, tag.attributes ++ [(a.name, encode a.value)]⟩) h.2
    rw [List.append_assoc, List.singleton_append] at hbehind
    exact ⟨mode', hbehind, (reads_attribute behind a h.1).append hrest⟩

/-- The inside of a tag, up to its end. -/
theorem reads_tag {name : Text} {attributes : List Attribute} (h : TagNamed name attributes) :
    ∃ mode, Mode.Behind mode ⟨name, writtenAttributes attributes⟩ ∧
      Reads ⟨.opened, opened, items⟩ (name ++ attributes.flatMap Attribute.render)
        ⟨mode, opened, items⟩ := by
  have hname : Reads ⟨.opened, opened, items⟩ name ⟨.name name, opened, items⟩ :=
    reads_name h.named (fun c hc => by rw [Mode.next?, if_pos hc])
      (fun c hc read => by rw [Mode.next?, if_pos hc])
  obtain ⟨mode, hbehind, hread⟩ := reads_attributes (behind_name name) h.each
  exact ⟨mode, hbehind, hname.append hread⟩

theorem reads_openingTag {name : Text} {attributes : List Attribute} (h : TagNamed name attributes)
    (read : Text) :
    Reads ⟨.data read, opened, items⟩ (openingTag name attributes)
      ⟨.data [], (⟨name, writtenAttributes attributes⟩, items ++ [.data read]) :: opened, []⟩ := by
  have hopen : Reads ⟨.data read, opened, items⟩ "<" ⟨.opened, opened, items ++ [.data read]⟩ :=
    reads_of_token rfl rfl
  obtain ⟨mode, hbehind, htag⟩ := reads_tag h
  have hclose : Reads ⟨mode, opened, items ++ [.data read]⟩ ">"
      ⟨.data [], (⟨name, writtenAttributes attributes⟩, items ++ [.data read]) :: opened, []⟩ :=
    reads_of_token (hbehind '>' (by decide)) rfl
  rw [openingTag, List.append_assoc "<".toList]
  exact (hopen.append htag).append hclose

theorem reads_voidTag {name : Text} {attributes : List Attribute} (h : TagNamed name attributes)
    (read : Text) :
    Reads ⟨.data read, opened, items⟩ (voidTag name attributes)
      ⟨.data [], opened,
        items ++ [.data read] ++ [.element ⟨name, writtenAttributes attributes⟩ []]⟩ := by
  have hopen : Reads ⟨.data read, opened, items⟩ "<" ⟨.opened, opened, items ++ [.data read]⟩ :=
    reads_of_token rfl rfl
  obtain ⟨mode, hbehind, htag⟩ := reads_tag h
  have hspace : Reads ⟨mode, opened, items ++ [.data read]⟩ [' ']
      ⟨.space ⟨name, writtenAttributes attributes⟩, opened, items ++ [.data read]⟩ :=
    reads_of_next (hbehind ' ' (by decide))
  have hclose (items : List Item) :
      Reads ⟨.space ⟨name, writtenAttributes attributes⟩, opened, items⟩ "/>"
        ⟨.data [], opened, items ++ [.element ⟨name, writtenAttributes attributes⟩ []]⟩ :=
    (reads_of_next rfl).cons (reads_of_token rfl rfl)
  rw [voidTag, List.append_assoc "<".toList]
  exact (hopen.append htag).append (hspace.cons (hclose _))

theorem reads_closingTag (h : isName tag.name = true) (before : List Item) (read : Text) :
    Reads ⟨.data read, (tag, before) :: opened, items⟩ (closingTag tag.name)
      ⟨.data [], opened, before ++ [.element tag (items ++ [.data read])]⟩ := by
  have hopen : Reads ⟨.data read, (tag, before) :: opened, items⟩ "</"
      ⟨.closing [], (tag, before) :: opened, items ++ [.data read]⟩ :=
    (reads_of_token rfl rfl).cons (reads_of_next rfl)
  have hname : Reads ⟨.closing [], (tag, before) :: opened, items ++ [.data read]⟩ tag.name
      ⟨.closing tag.name, (tag, before) :: opened, items ++ [.data read]⟩ :=
    reads_gathered .closing
      (fun c hc read => by rw [Mode.next?, if_pos (isNameChar_of_mem h hc)]) []
  have hclose : Reads ⟨.closing tag.name, (tag, before) :: opened, items ++ [.data read]⟩ ">"
      ⟨.data [], opened, before ++ [.element tag (items ++ [.data read])]⟩ :=
    reads_of_token rfl (by simp [Reader.put?])
  exact (hopen.append hname).append hclose

/-! ## Elements -/

theorem reads_data {t : Text} (h : '<' ∉ t) (read : Text) :
    Reads ⟨.data read, opened, items⟩ t ⟨.data (read ++ t), opened, items⟩ := by
  refine reads_gathered .data (fun c hc read => ?_) read
  rw [Mode.next?, if_neg]
  rintro rfl
  exact h hc

theorem reads_newline (opened : List (Tag × List Item)) (items : List Item) :
    Reads ⟨.data [], opened, items⟩ "\n" ⟨.data "\n", opened, items⟩ :=
  reads_of_next rfl

theorem reads_indent (depth : Nat) (read : Text) :
    Reads ⟨.data read, opened, items⟩ (indent depth)
      ⟨.data (read ++ indent depth), opened, items⟩ := by
  refine reads_data (fun hmem => ?_) read
  cases List.eq_of_mem_replicate hmem

/-- What was read before a rendered element goes in front of the item it is read as. -/
def Element.ReadBack (e : Element) : Prop :=
  ∀ depth read opened items, Reads ⟨.data read, opened, items⟩ (e.render depth)
    ⟨.data [], opened, items ++ [.data (read ++ indent depth)] ++ [e.item depth]⟩

theorem reads_renderAll {children : List Element} (h : ∀ child ∈ children, child.ReadBack)
    (depth : Nat) (opened : List (Tag × List Item)) (items : List Item) :
    Reads ⟨.data "\n", opened, items⟩ (renderAll depth children)
      ⟨.data "\n", opened, items ++ itemsOf depth children⟩ := by
  induction children generalizing items with
  | nil =>
    rw [itemsOf, List.append_nil]
    exact .nil _
  | cons child rest ih =>
    rw [List.forall_mem_cons] at h
    have hchild := h.1 depth "\n" opened items
    have hrest := ih h.2 (items ++ [.data ("\n" ++ indent depth)] ++ [child.item depth])
    have hall := (hchild.append (reads_newline opened _)).append hrest
    rw [renderAll, itemsOf]
    simpa only [List.append_assoc, List.cons_append, List.nil_append] using hall

/-- What is read between two tags of one name goes inside an element. -/
theorem reads_between {name last content : Text} {attributes : List Attribute} {inside : List Item}
    (h : TagNamed name attributes)
    (hcontent : ∀ opened, Reads ⟨.data [], opened, []⟩ content ⟨.data last, opened, inside⟩)
    (read : Text) (opened : List (Tag × List Item)) (items : List Item) :
    Reads ⟨.data read, opened, items⟩ (openingTag name attributes ++ content ++ closingTag name)
      ⟨.data [], opened, items ++ [.data read] ++
        [.element ⟨name, writtenAttributes attributes⟩ (inside ++ [.data last])]⟩ := by
  let tag : Tag := ⟨name, writtenAttributes attributes⟩
  have hclosing : Reads ⟨.data last, (tag, items ++ [.data read]) :: opened, inside⟩
      (closingTag tag.name) _ :=
    reads_closingTag h.named (items ++ [.data read]) last
  exact ((reads_openingTag h read).append (hcontent _)).append hclosing

theorem Element.Named.readBack {e : Element} (h : e.Named) : e.ReadBack := by
  induction h with
  | @group name attributes children tag _ ih =>
    intro depth read opened items
    have hcontent (opened : List (Tag × List Item)) : Reads ⟨.data [], opened, []⟩
        ("\n".toList ++ renderAll (depth + 1) children ++ indent depth)
        ⟨.data ("\n" ++ indent depth), opened, itemsOf (depth + 1) children⟩ :=
      ((reads_newline opened []).append (reads_renderAll ih (depth + 1) opened [])).append
        (reads_indent depth "\n")
    have hall := (reads_indent depth read).append (reads_between tag hcontent _ opened items)
    rw [Element.render, Element.item]
    simpa only [List.append_assoc] using hall
  | @leaf name attributes content tag =>
    intro depth read opened items
    have hcontent (opened : List (Tag × List Item)) : Reads ⟨.data [], opened, []⟩ (encode content)
        ⟨.data (encode content), opened, []⟩ :=
      reads_data (fun hmem => by cases isPlain_of_mem_encode hmem) []
    have hall := (reads_indent depth read).append (reads_between tag hcontent _ opened items)
    rw [Element.render, Element.item]
    simpa only [List.append_assoc, List.nil_append] using hall
  | void tag =>
    intro depth read opened items
    exact (reads_indent depth read).append (reads_voidTag tag _)

theorem isElement_item (e : Element) (depth : Nat) : (e.item depth).isElement = true := by
  cases e <;> rfl

theorem reads_declaration :
    Reads ⟨.data [], [], []⟩ declaration
      ⟨.data [], [], [.data [], .instruction "xml version=\"1.0\" encoding=\"UTF-8\""]⟩ := rfl

/-- Reading gives back the document that was written. -/
theorem document?_document {root : Element} (h : root.Named) :
    document? (document root) = some (root.item 0) := by
  have hroot (items : List Item) := (reads_newline [] items).append (h.readBack 0 "\n" [] items)
  have hread := reads_declaration.append (hroot _)
  rw [← document_eq, Reads] at hread
  obtain ⟨tag, inside, helement⟩ : ∃ tag inside, root.item 0 = .element tag inside := by
    cases root <;> exact ⟨_, _, rfl⟩
  rw [document?, hread, helement]
  rfl

/-! ## What is inside -/

theorem filter_isElement_itemsOf (depth : Nat) (children : List Element) :
    (itemsOf depth children).filter Item.isElement = children.map (Element.item depth) := by
  induction children with
  | nil => rfl
  | cons child rest ih =>
    rw [itemsOf, List.filter_cons_of_neg (by exact Bool.false_ne_true),
      List.filter_cons_of_pos (isElement_item child depth), ih, List.map_cons]

theorem elements_item_group (depth : Nat) (name : Text) (attributes : List Attribute)
    (children : List Element) :
    (Element.item depth (.group name attributes children)).elements =
      children.map (Element.item (depth + 1)) := by
  rw [Element.item, Item.elements, Item.inside, List.filter_append, filter_isElement_itemsOf,
    List.filter_cons_of_neg (by exact Bool.false_ne_true), List.filter_nil, List.append_nil]

theorem isLayout_newline_indent (depth : Nat) :
    (Item.data ("\n" ++ indent depth)).isLayout = true :=
  isSpace_append isSpace_newline (isSpace_indent depth)

theorem isElement_or_isLayout_itemsOf (depth : Nat) (children : List Element) :
    ∀ item ∈ itemsOf depth children, item.isElement = true ∨ item.isLayout = true := by
  induction children with
  | nil =>
    intro item h
    cases h
  | cons child rest ih =>
    rw [itemsOf, List.forall_mem_cons, List.forall_mem_cons]
    exact ⟨Or.inr (isLayout_newline_indent depth), Or.inl (isElement_item child depth), ih⟩

/-- All but elements inside an item is layout. -/
def Item.HoldsElements (item : Item) : Prop :=
  ∀ inner ∈ item.inside, inner.isElement = true ∨ inner.isLayout = true

theorem holdsElements_item_group (depth : Nat) (name : Text) (attributes : List Attribute)
    (children : List Element) :
    (Element.item depth (.group name attributes children)).HoldsElements := by
  rw [Element.item, Item.HoldsElements, Item.inside, List.forall_mem_append,
    List.forall_mem_singleton]
  exact ⟨isElement_or_isLayout_itemsOf (depth + 1) children,
    Or.inr (isLayout_newline_indent depth)⟩

theorem attribute?_element {name : Text} {attributes : List Attribute}
    (h : TagNamed name attributes) {a : Attribute} (ha : a ∈ attributes) (inside : List Item) :
    (Item.element ⟨name, writtenAttributes attributes⟩ inside).attribute? a.name =
      some a.value := by
  have hdifferent := h.different
  rw [Item.attribute?]
  clear h
  induction attributes with
  | nil => cases ha
  | cons first rest ih =>
    rw [List.map_cons, List.nodup_cons] at hdifferent
    rw [writtenAttributes, List.map_cons, List.lookup_cons]
    rcases List.mem_cons.1 ha with rfl | hrest
    · rw [beq_self_eq_true, Option.map_some, decode_encode]
    · have hne : a.name ≠ first.name := by
        intro he
        exact hdifferent.1 (he ▸ List.mem_map_of_mem hrest)
      rw [beq_false_of_ne hne]
      exact ih hrest hdifferent.2

def Element.attributes : Element → List Attribute
  | .group _ attributes _ => attributes
  | .leaf _ attributes _ => attributes
  | .void _ attributes => attributes

theorem Element.Named.attribute?_item {e : Element} (h : e.Named) (depth : Nat) {a : Attribute}
    (ha : a ∈ e.attributes) : (e.item depth).attribute? a.name = some a.value := by
  cases h with
  | group tag each => exact attribute?_element tag ha _
  | leaf tag => exact attribute?_element tag ha _
  | void tag => exact attribute?_element tag ha _

end SourceAudit.Markup
