import SourceAudit.Markup.Element

/-!
# Well-formed documents

The grammar of XML 1.0 as far as a document needs it that has elements, character data and the
five entities known without a definition; with comments, instructions, document types and
references by number left out, it is the narrower one. A text is well-formed when it is written in
the grammar and has none but the allowed characters. Escaping sees to the first and leaves the
second to the texts that are written.

    root.Named → DocumentText (document root)                             (documentText_document)
    root.Named → (Allowed (document root) ↔ ∀ t ∈ root.texts, Allowed t)  (allowed_document_iff)
-/

namespace SourceAudit.Markup

/-! ## Grammar -/

def isWithin (ranges : List (Nat × Nat)) (c : Char) : Bool :=
  ranges.any fun r => r.1 ≤ c.toNat && c.toNat ≤ r.2

/-- The production Char. -/
def isAllowed (c : Char) : Bool :=
  isWithin [(0x9, 0xa), (0xd, 0xd), (0x20, 0xd7ff), (0xe000, 0xfffd), (0x10000, 0x10ffff)] c

def Allowed (t : Text) : Prop := t.all isAllowed = true

instance (t : Text) : Decidable (Allowed t) :=
  inferInstanceAs (Decidable (t.all isAllowed = true))

/-- A character of the production S. -/
def isSpace (c : Char) : Bool := c == ' ' || c == '\t' || c == '\r' || c == '\n'

def IsSpace (t : Text) : Prop := t.all isSpace = true

instance (t : Text) : Decidable (IsSpace t) :=
  inferInstanceAs (Decidable (t.all isSpace = true))

/-- The production NameStartChar. -/
def isNameStart (c : Char) : Bool :=
  isWithin [(0x3a, 0x3a), (0x41, 0x5a), (0x5f, 0x5f), (0x61, 0x7a), (0xc0, 0xd6), (0xd8, 0xf6),
    (0xf8, 0x2ff), (0x370, 0x37d), (0x37f, 0x1fff), (0x200c, 0x200d), (0x2070, 0x218f),
    (0x2c00, 0x2fef), (0x3001, 0xd7ff), (0xf900, 0xfdcf), (0xfdf0, 0xfffd), (0x10000, 0xeffff)] c

/-- The production NameChar. -/
def isNameChar (c : Char) : Bool :=
  isNameStart c ||
    isWithin [(0x2d, 0x2e), (0x30, 0x39), (0xb7, 0xb7), (0x300, 0x36f), (0x203f, 0x2040)] c

/-- The production Name. -/
def isName : Text → Bool
  | [] => false
  | c :: rest => isNameStart c && rest.all isNameChar

/-- The entities that every reader knows. -/
def predefined : List Text := ["&amp;", "&lt;", "&gt;", "&quot;", "&apos;"]

/-- Characters and entities, without the characters that would end them. -/
inductive CharacterText (ends : List Char) : Text → Prop
  | nil : CharacterText ends []
  | char {c : Char} {rest : Text} (plain : c ≠ '<' ∧ c ≠ '&' ∧ c ∉ ends)
      (more : CharacterText ends rest) : CharacterText ends (c :: rest)
  | entity {entity rest : Text} (known : entity ∈ predefined)
      (more : CharacterText ends rest) : CharacterText ends (entity ++ rest)

/-- What may stand between tags. -/
structure DataText (t : Text) : Prop where
  characters : CharacterText [] t
  noEnd : ¬ "]]>".toList <:+: t

/-- Attributes, and their names. Each stands behind white space and has its value in quotes. -/
inductive AttributesText : List Text → Text → Prop
  | nil : AttributesText [] []
  | cons {space name value rest : Text} {quote : Char} {names : List Text}
      (apart : space ≠ [] ∧ IsSpace space) (named : isName name = true)
      (quoted : quote = '"' ∨ quote = '\'') (characters : CharacterText [quote] value)
      (more : AttributesText names rest) :
      AttributesText (name :: names)
        (space ++ (name ++ ("=" ++ ([quote] ++ (value ++ ([quote] ++ rest))))))

/-- The inside of a tag: a name and attributes whose names differ. -/
inductive TagText (name : Text) : Text → Prop
  | mk {names : List Text} {attributes space : Text} (named : isName name = true)
      (each : AttributesText names attributes) (different : names.Nodup)
      (behind : IsSpace space) : TagText name (name ++ (attributes ++ space))

mutual

/-- An element: an empty tag, or two tags of one name around some content. -/
inductive ElementText : Text → Prop
  | void {name tag : Text} (opened : TagText name tag) : ElementText ("<" ++ (tag ++ "/>"))
  | nested {name tag content space : Text} (opened : TagText name tag)
      (inside : ContentText content) (behind : IsSpace space) :
      ElementText ("<" ++ (tag ++ (">" ++ (content ++ ("</" ++ (name ++ (space ++ ">")))))))

/-- Character data with elements in it. -/
inductive ContentText : Text → Prop
  | data {t : Text} (plain : DataText t) : ContentText t
  | element {t inner rest : Text} (plain : DataText t) (first : ElementText inner)
      (more : ContentText rest) : ContentText (t ++ (inner ++ rest))

end

def declaration : Text := "<?xml version=\"1.0\" encoding=\"UTF-8\"?>"

/-- A document: the declaration and one element, with white space around it. -/
inductive DocumentText : Text → Prop
  | mk {before root after : Text} (above : IsSpace before) (element : ElementText root)
      (below : IsSpace after) : DocumentText (declaration ++ (before ++ (root ++ after)))

structure WellFormed (t : Text) : Prop where
  markup : DocumentText t
  characters : Allowed t

/-! ## Elements with proper names -/

structure TagNamed (name : Text) (attributes : List Attribute) : Prop where
  named : isName name = true
  each : ∀ a ∈ attributes, isName a.name = true
  different : (attributes.map Attribute.name).Nodup

/-- Every name in the element is one, and no tag has two attributes of one name. -/
inductive Element.Named : Element → Prop
  | group {name : Text} {attributes : List Attribute} {children : List Element}
      (tag : TagNamed name attributes) (each : ∀ child ∈ children, child.Named) :
      Named (.group name attributes children)
  | leaf {name : Text} {attributes : List Attribute} {content : Text}
      (tag : TagNamed name attributes) : Named (.leaf name attributes content)
  | void {name : Text} {attributes : List Attribute} (tag : TagNamed name attributes) :
      Named (.void name attributes)

mutual

/-- The texts that are escaped in an element. -/
def Element.texts : Element → List Text
  | .group _ attributes children => attributes.map Attribute.value ++ textsOf children
  | .leaf _ attributes content => attributes.map Attribute.value ++ [content]
  | .void _ attributes => attributes.map Attribute.value

def textsOf : List Element → List Text
  | [] => []
  | e :: rest => e.texts ++ textsOf rest

end

theorem isNameChar_of_isNameStart {c : Char} (h : isNameStart c = true) : isNameChar c = true := by
  rw [isNameChar, h, Bool.true_or]

theorem isNameChar_of_mem {name : Text} (h : isName name = true) {c : Char} (hc : c ∈ name) :
    isNameChar c = true := by
  cases name with
  | nil => cases hc
  | cons first rest =>
    rw [isName, Bool.and_eq_true, List.all_eq_true] at h
    rcases List.mem_cons.1 hc with rfl | hc
    · exact isNameChar_of_isNameStart h.1
    · exact h.2 c hc

theorem TagNamed.of_names {name : Text} {attributes : List Attribute} (names : List Text)
    (h : attributes.map Attribute.name = names)
    (proper : isName name = true ∧ (∀ n ∈ names, isName n = true) ∧ names.Nodup) :
    TagNamed name attributes where
  named := proper.1
  each := by
    rw [← List.forall_mem_map (P := fun n => isName n = true), h]
    exact proper.2.1
  different := h ▸ proper.2.2

/-! ## Character data -/

theorem mem_predefined {c : Char} {entity : Text} (h : (c, entity) ∈ entities) :
    entity ∈ predefined := by
  have hall : ∀ e ∈ entities, e.2 ∈ predefined := by decide
  exact hall _ h

theorem encode_cons (c : Char) (rest : Text) : encode (c :: rest) = encodeChar c ++ encode rest :=
  List.flatMap_cons

/-- Every `&` in escaped text begins an entity. -/
theorem exists_entity_of_encode_eq {t before after : Text} (h : encode t = before ++ '&' :: after) :
    ∃ entity ∈ predefined, entity <+: '&' :: after := by
  have hhead : ∀ e ∈ entities, '&' ∉ e.2.tail := by decide
  induction t generalizing before with
  | nil => cases before <;> cases h
  | cons c rest ih =>
    rw [encode_cons] at h
    rcases encodeChar_cases c with ⟨hne, -, hself⟩ | hentity
    · rw [hself] at h
      cases before with
      | nil => exact absurd (List.cons.inj h).1 hne
      | cons b before => exact ih (List.cons.inj h).2
    · rcases List.append_eq_append_iff.1 h with ⟨more, rfl, hrest⟩ | ⟨more, he, hafter⟩
      · exact ih hrest
      · cases more with
        | nil => exact ih (show encode rest = [] ++ '&' :: after from hafter.symm)
        | cons d more =>
          -- The mark stands inside the entity, and so it is the first of its characters.
          cases before with
          | nil =>
            rw [List.nil_append] at he
            rw [hafter, ← he]
            exact ⟨_, mem_predefined hentity, List.prefix_append _ _⟩
          | cons b before =>
            have hd : d = '&' := (List.cons.inj hafter).1.symm
            have htail := hhead _ hentity
            rw [he, hd] at htail
            exact absurd (List.mem_append_right before List.mem_cons_self) htail

theorem CharacterText.of_encode {ends : List Char} (h : ∀ c ∈ ends, isPlain c = false)
    (t : Text) : CharacterText ends (encode t) := by
  induction t with
  | nil => exact .nil
  | cons c rest ih =>
    rw [encode_cons]
    rcases encodeChar_cases c with ⟨hne, hplain, hself⟩ | hentity
    · rw [hself]
      refine .char ⟨?_, hne, fun hc => ?_⟩ ih
      · rintro rfl
        cases hplain
      · rw [h c hc] at hplain
        cases hplain
    · exact .entity (mem_predefined hentity) ih

theorem CharacterText.of_isSpace {t : Text} (h : IsSpace t) : CharacterText [] t := by
  induction t with
  | nil => exact .nil
  | cons c rest ih =>
    rw [IsSpace, List.all_cons, Bool.and_eq_true] at h
    refine .char ⟨?_, ?_, List.not_mem_nil⟩ (ih h.2)
    · rintro rfl
      cases h.1
    · rintro rfl
      cases h.1

theorem not_endMark_infix {t : Text} (h : '>' ∉ t) : ¬ "]]>".toList <:+: t := by
  intro hend
  exact h (hend.subset (by decide))

theorem DataText.of_isSpace {t : Text} (h : IsSpace t) : DataText t where
  characters := .of_isSpace h
  noEnd := not_endMark_infix fun hmem => by cases List.all_eq_true.1 h _ hmem

theorem DataText.of_encode (t : Text) : DataText (encode t) where
  characters := .of_encode (fun c hc => by cases hc) t
  noEnd := not_endMark_infix fun hmem => by cases isPlain_of_mem_encode hmem

/-! ## Rendered elements -/

theorem isSpace_nil : IsSpace [] := by decide

theorem isSpace_newline : IsSpace "\n" := by decide

theorem isSpace_append {s t : Text} (hs : IsSpace s) (ht : IsSpace t) : IsSpace (s ++ t) := by
  rw [IsSpace, List.all_append, hs, ht]
  rfl

theorem isSpace_indent (depth : Nat) : IsSpace (indent depth) := by
  refine List.all_eq_true.2 fun c hc => ?_
  rw [List.eq_of_mem_replicate hc]
  rfl

theorem attributesText_render {attributes : List Attribute}
    (h : ∀ a ∈ attributes, isName a.name = true) :
    AttributesText (attributes.map Attribute.name) (attributes.flatMap Attribute.render) := by
  induction attributes with
  | nil => exact .nil
  | cons a rest ih =>
    rw [List.forall_mem_cons] at h
    have hspace : " ".toList ≠ [] ∧ IsSpace " " := ⟨by decide, by decide⟩
    have hvalue : CharacterText ['"'] (encode a.value) :=
      .of_encode (List.forall_mem_singleton.2 rfl) a.value
    have hcons := AttributesText.cons hspace h.1 (Or.inl rfl) hvalue (ih h.2)
    have hequals : "=\"".toList = "=".toList ++ ['"'] := rfl
    have hquote : "\"".toList = ['"'] := rfl
    rw [List.map_cons, List.flatMap_cons, Attribute.render, hequals, hquote]
    simpa only [List.append_assoc] using hcons

theorem TagNamed.tagText {name : Text} {attributes : List Attribute}
    (h : TagNamed name attributes) {space : Text} (behind : IsSpace space) :
    TagText name (name ++ (attributes.flatMap Attribute.render ++ space)) :=
  .mk h.named (attributesText_render h.each) h.different behind

/-- An element in the grammar, behind its indent. -/
def Element.Written (depth : Nat) (e : Element) : Prop :=
  ∃ inner, e.render depth = indent depth ++ inner ∧ ElementText inner

theorem contentText_renderAll {children : List Element} {depth : Nat}
    (h : ∀ child ∈ children, child.Written depth) {before after : Text} (above : IsSpace before)
    (below : IsSpace after) : ContentText (before ++ (renderAll depth children ++ after)) := by
  induction children generalizing before with
  | nil => exact .data (.of_isSpace (isSpace_append above below))
  | cons child rest ih =>
    rw [List.forall_mem_cons] at h
    obtain ⟨⟨inner, hrender, hinner⟩, hrest⟩ := h
    have hspace : DataText (before ++ indent depth) :=
      .of_isSpace (isSpace_append above (isSpace_indent depth))
    have hmore := ih hrest isSpace_newline
    rw [renderAll, hrender]
    simpa only [List.append_assoc] using ContentText.element hspace hinner hmore

theorem Element.Named.written {e : Element} (h : e.Named) (depth : Nat) : e.Written depth := by
  induction h generalizing depth with
  | @group name attributes children tag _ ih =>
    have hcontent := contentText_renderAll (fun child hc => ih child hc (depth + 1))
      isSpace_newline (isSpace_indent depth)
    have helement := ElementText.nested (tag.tagText isSpace_nil) hcontent isSpace_nil
    refine ⟨_, ?_, helement⟩
    simp only [Element.render, openingTag, closingTag, List.append_assoc, List.nil_append]
  | @leaf name attributes content tag =>
    have helement := ElementText.nested (tag.tagText isSpace_nil) (.data (.of_encode content))
      isSpace_nil
    refine ⟨_, ?_, helement⟩
    simp only [Element.render, openingTag, closingTag, List.append_assoc, List.nil_append]
  | @void name attributes tag =>
    have hspace : IsSpace " " := by decide
    refine ⟨_, ?_, .void (tag.tagText hspace)⟩
    simp only [Element.render, voidTag, List.append_assoc]
    rfl

theorem document_eq (root : Element) :
    document root = declaration ++ ("\n".toList ++ root.render 0) := by
  have hline : "<?xml version=\"1.0\" encoding=\"UTF-8\"?>\n".toList =
      declaration ++ "\n".toList := by decide +kernel
  rw [← List.append_assoc, ← hline]
  rfl

theorem documentText_document {root : Element} (h : root.Named) : DocumentText (document root) := by
  obtain ⟨inner, hrender, hinner⟩ := h.written 0
  have hdocument := DocumentText.mk isSpace_newline hinner isSpace_nil
  have hindent : indent 0 = [] := rfl
  rw [document_eq, hrender, hindent]
  simpa only [List.append_nil, List.nil_append] using hdocument

/-! ## Allowed characters -/

theorem allowed_iff {t : Text} : Allowed t ↔ ∀ c ∈ t, isAllowed c = true := List.all_eq_true

theorem allowed_append {s t : Text} : Allowed (s ++ t) ↔ Allowed s ∧ Allowed t := by
  rw [Allowed, List.all_append, Bool.and_eq_true]
  rfl

theorem allowed_cons {c : Char} {t : Text} :
    Allowed (c :: t) ↔ isAllowed c = true ∧ Allowed t := by
  rw [Allowed, List.all_cons, Bool.and_eq_true]
  rfl

theorem allowed_of_mem_entities {c : Char} {entity : Text} (h : (c, entity) ∈ entities) :
    Allowed (c :: entity) := by
  have hall : ∀ e ∈ entities, Allowed (e.1 :: e.2) := by decide
  exact hall _ h

theorem allowed_encode_iff {t : Text} : Allowed (encode t) ↔ Allowed t := by
  induction t with
  | nil => exact Iff.rfl
  | cons c rest ih =>
    rw [encode_cons, allowed_append, ih, allowed_cons]
    refine and_congr_left fun _ => ?_
    rcases encodeChar_cases c with ⟨-, -, hself⟩ | hentity
    · rw [hself, allowed_cons]
      exact and_iff_left rfl
    · have hall := allowed_cons.1 (allowed_of_mem_entities hentity)
      exact iff_of_true hall.2 hall.1

theorem isAllowed_of_isNameChar {c : Char} (h : isNameChar c = true) : isAllowed c = true := by
  simp only [isNameChar, isNameStart, isAllowed, isWithin, List.any_cons, List.any_nil,
    Bool.or_eq_true, Bool.and_eq_true, decide_eq_true_eq, Bool.false_eq_true, or_false] at h ⊢
  omega

theorem allowed_of_isName {name : Text} (h : isName name = true) : Allowed name :=
  allowed_iff.2 fun _ hc => isAllowed_of_isNameChar (isNameChar_of_mem h hc)

theorem allowed_indent (depth : Nat) : Allowed (indent depth) := by
  refine allowed_iff.2 fun c hc => ?_
  rw [List.eq_of_mem_replicate hc]
  decide

theorem allowed_attributes_iff {attributes : List Attribute}
    (h : ∀ a ∈ attributes, isName a.name = true) :
    Allowed (attributes.flatMap Attribute.render) ↔ ∀ a ∈ attributes, Allowed a.value := by
  induction attributes with
  | nil => simp [Allowed]
  | cons a rest ih =>
    rw [List.forall_mem_cons] at h
    have hspace : Allowed " " := by decide
    have hequals : Allowed "=\"" := by decide
    have hquote : Allowed "\"" := by decide
    rw [List.flatMap_cons, allowed_append, ih h.2, List.forall_mem_cons, Attribute.render]
    simp only [allowed_append, allowed_encode_iff, hspace, hequals, hquote,
      allowed_of_isName h.1, true_and, and_true]

theorem forall_mem_textsOf {p : Text → Prop} {children : List Element} :
    (∀ t ∈ textsOf children, p t) ↔ ∀ child ∈ children, ∀ t ∈ child.texts, p t := by
  induction children with
  | nil => simp [textsOf]
  | cons child rest ih => rw [textsOf, List.forall_mem_append, List.forall_mem_cons, ih]

/-- The texts that are escaped in the element decide which characters it has. -/
def Element.ShowsTexts (e : Element) : Prop :=
  ∀ depth, Allowed (e.render depth) ↔ ∀ t ∈ e.texts, Allowed t

theorem allowed_renderAll_iff {children : List Element} (h : ∀ child ∈ children, child.ShowsTexts)
    (depth : Nat) : Allowed (renderAll depth children) ↔ ∀ t ∈ textsOf children, Allowed t := by
  rw [forall_mem_textsOf]
  induction children with
  | nil => simp [renderAll, Allowed]
  | cons child rest ih =>
    rw [List.forall_mem_cons] at h ⊢
    have hnewline : Allowed "\n" := by decide
    rw [renderAll, allowed_append, allowed_append, h.1 depth, ih h.2]
    simp only [hnewline, and_true]

theorem TagNamed.allowed {name : Text} {attributes : List Attribute}
    (h : TagNamed name attributes) : Allowed name ∧
      (Allowed (attributes.flatMap Attribute.render) ↔
        ∀ t ∈ attributes.map Attribute.value, Allowed t) := by
  rw [List.forall_mem_map]
  exact ⟨allowed_of_isName h.named, allowed_attributes_iff h.each⟩

theorem Element.Named.showsTexts {e : Element} (h : e.Named) : e.ShowsTexts := by
  have hopen : Allowed "<" := by decide
  have hclose : Allowed ">" := by decide
  have hend : Allowed "</" := by decide
  have hvoid : Allowed " />" := by decide
  have hnewline : Allowed "\n" := by decide
  induction h with
  | group tag _ ih =>
    intro depth
    simp only [Element.render, openingTag, closingTag, Element.texts, allowed_append,
      allowed_indent, tag.allowed.1, tag.allowed.2, allowed_renderAll_iff ih,
      List.forall_mem_append, hopen, hclose, hend, hnewline, true_and, and_true]
  | leaf tag =>
    intro depth
    simp only [Element.render, openingTag, closingTag, Element.texts, allowed_append,
      allowed_indent, tag.allowed.1, tag.allowed.2, allowed_encode_iff, List.forall_mem_append,
      List.forall_mem_singleton, hopen, hclose, hend, true_and, and_true]
  | void tag =>
    intro depth
    simp only [Element.render, voidTag, Element.texts, allowed_append, allowed_indent,
      tag.allowed.1, tag.allowed.2, hopen, hvoid, true_and, and_true]

theorem allowed_document_iff {root : Element} (h : root.Named) :
    Allowed (document root) ↔ ∀ t ∈ root.texts, Allowed t := by
  have hdeclaration : Allowed declaration := by decide +kernel
  have hnewline : Allowed "\n" := by decide
  rw [document_eq, allowed_append, allowed_append, h.showsTexts]
  simp only [hdeclaration, hnewline, true_and]

end SourceAudit.Markup
