import SourceAudit.Markup.Escaped

/-!
# Markup documents

A document is one element. A group has elements inside, on lines of their own two blanks deeper; a
leaf has text inside and an empty element nothing. Names are written as they are, and the values of
attributes and all text escaped.
-/

namespace SourceAudit.Markup

structure Attribute where
  name : Text
  value : Text
deriving DecidableEq

inductive Element
  | group (name : Text) (attributes : List Attribute) (children : List Element)
  | leaf (name : Text) (attributes : List Attribute) (content : Text)
  | void (name : Text) (attributes : List Attribute)

def Attribute.render (a : Attribute) : Text := " " ++ a.name ++ "=\"" ++ encode a.value ++ "\""

def openingTag (name : Text) (attributes : List Attribute) : Text :=
  "<" ++ name ++ attributes.flatMap Attribute.render ++ ">"

def closingTag (name : Text) : Text := "</" ++ name ++ ">"

def voidTag (name : Text) (attributes : List Attribute) : Text :=
  "<" ++ name ++ attributes.flatMap Attribute.render ++ " />"

def indent (depth : Nat) : Text := List.replicate (2 * depth) ' '

mutual

/-- The lines of an element that stands `depth` levels deep. -/
def Element.render (depth : Nat) : Element → Text
  | .group name attributes children =>
    indent depth ++ openingTag name attributes ++ "\n" ++ renderAll (depth + 1) children ++
      indent depth ++ closingTag name
  | .leaf name attributes content =>
    indent depth ++ openingTag name attributes ++ encode content ++ closingTag name
  | .void name attributes => indent depth ++ voidTag name attributes

/-- The lines of several elements, each with its line end. -/
def renderAll (depth : Nat) : List Element → Text
  | [] => []
  | e :: rest => e.render depth ++ "\n" ++ renderAll depth rest

end

/-- A document, behind the line that says what it is. -/
def document (root : Element) : Text :=
  "<?xml version=\"1.0\" encoding=\"UTF-8\"?>\n" ++ root.render 0

end SourceAudit.Markup
