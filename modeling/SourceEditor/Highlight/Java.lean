import SourceEditor.Highlight.Basic

/-!
# Highlights of Java

What a name in a Java source stands for, told from the kind of its node, the field it fills and the
nodes around it. `Java.highlight` is the rule for one node of a syntax tree.
-/

namespace SourceEditor.Java

/-- The kinds of nodes that declare a type. -/
def typeDeclarations : List String :=
  ["class_declaration", "interface_declaration", "enum_declaration", "record_declaration",
   "annotation_type_declaration"]

/-- The kinds of nodes that declare a parameter. -/
def parameters : List String :=
  ["formal_parameter", "spread_parameter", "catch_formal_parameter"]

/-- The category of a name, from the field it fills, the kind of its parent and the kind of its
grandparent. -/
def nameCategory? (field : Option String) (parent : String) (grandparent : Option String) :
    Option Category :=
  let isName := field == some "name"
  if isName && ["method_declaration", "constructor_declaration"].contains parent then
    some .functionDeclaration
  else if isName && parent == "method_invocation" then some .functionCall
  else if isName && typeDeclarations.contains parent then some .typeName
  else if isName && parent == "variable_declarator" then
    if grandparent.any ["field_declaration", "constant_declaration"].contains then some .property
    else some .localVariable
  else if parent == "field_access" && field == some "field" then some .property
  else if isName && parameters.contains parent then some .parameter
  else if ["package_declaration", "import_declaration"].contains parent then some .namespaceName
  else none

/-- The highlight of a node of a syntax tree. An annotation is highlighted up to the end of its
name, and the first path of a package or import declaration as a whole. -/
def highlight (c : Cursor NodeInfo) : Option Highlight :=
  let range := c.label.range
  if c.kind == "identifier" then
    match c.parent? with
    | none => none
    | some parent =>
      (nameCategory? c.label.field parent.kind (parent.parent?.map Cursor.kind)).map (⟨range, ·⟩)
  else if c.kind == "type_identifier" then some ⟨range, .typeName⟩
  else if c.kind == "marker_annotation" || c.kind == "annotation" then
    let stop := ((c.childByField? "name").map (·.label.range.stop)).getD range.stop
    some ⟨⟨range.start, stop⟩, .annotationName⟩
  else if c.kind == "package_declaration" || c.kind == "import_declaration" then
    let path := c.children.find? fun child =>
      child.kind == "scoped_identifier" || child.kind == "identifier"
    path.map fun child => ⟨child.label.range, .namespaceName⟩
  else none

end SourceEditor.Java
