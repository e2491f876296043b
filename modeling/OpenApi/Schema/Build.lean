import OpenApi.Schema.Shape

/-
Building the model of a schema.

A reference is not followed when a model is built from it: it becomes a leaf that names its target,
and is looked up only to find out that there is one.  The members of a composition are the
exception.  The names that a composition requires may be declared by a member it refers to, so the
member's target is built as well, and its properties are candidates for being required.

Following references may lead back to where it started.  So `following` holds the references that
are just being followed, and none of them is followed again for the model of its target.  All that
can be followed are references of the description or of the schema at the root: a step either leaves
fewer of them or goes to a smaller schema, which is why building ends for every description.
-/
namespace OpenApi.Schema

/-- The type fields of a model from the use of a type. -/
def withType (model : Model) (use : TypeUse) : Model :=
  { model with
    toTypeText := use.toTypeText
    imports := use.imports
    isNullable := model.isNullable || use.isNullable }

/-- The type fields of a container, from those of the model of its elements. -/
def withElement (model : Model) (kind : ModelKind) (element : Model) (link : Option Model) :
    Model :=
  { model with
    kind := kind
    toTypeText := element.toTypeText
    link := link
    imports := element.imports }

/-- The enumerations that a property hands on to the model it belongs to. -/
def ownEnums (property : Model) : List Model :=
  property.enums ++ if property.kind = .enumeration then [property] else []

def allImports (models : List Model) : List String := models.flatMap (·.imports)

def withProperties (model : Model) (properties : List Model) : Model :=
  { model with
    kind := .record
    properties := properties
    imports := allImports properties
    enums := properties.flatMap ownEnums }

/-- Whether a model says nothing: a record or plain model of type `any` without properties. -/
def saysNothing (model : Model) : Bool :=
  model.type == "any" && (model.kind == .record || model.kind == .generic) &&
    model.properties.isEmpty && model.enums.isEmpty

/-- The record that holds what a composition declares itself. -/
def ownRecord (properties : List Model) : List Model :=
  if properties.isEmpty then []
  else [{ name := "properties", kind := .record, properties := properties }]

/-- A composition of its members and of its own properties, in that order. -/
def withMembers (model : Model) (kind : ModelKind) (members properties : List Model) : Model :=
  let children := members.filter (!saysNothing ·)
  { model with
    kind := kind
    properties := children ++ ownRecord properties
    imports := allImports children ++ allImports properties
    enums := children.flatMap (·.enums) ++ properties.flatMap ownEnums }

/-- The names that a schema requires. -/
def requiredNames (schema : Node) : List Node := (schema.get "required").items?.getD []

/-- For each required name the first candidate with that name that is not required yet, as a
required property. -/
def promote (required : List Node) (candidates : List Model) : List Model :=
  required.filterMap fun name =>
    match name with
    | .str s =>
      (candidates.find? fun m => m.name == Name.quoteUnlessBare s && !m.isRequired).map
        fun m => { m with isRequired := true }
    | _ => none

/-- A property that is fixed by a discriminator to one value. -/
def fixedProperty (schema : Node) (value : String) : Model :=
  { plainModel schema "" false with
    kind := .reference
    type := "string"
    base := "'" ++ value ++ "'" }

/-- A model as the property of that name. -/
def asProperty (name : String) (isRequired : Bool) (model : Model) : Model :=
  { model with name := Name.quoteUnlessBare name, isRequired := isRequired }

/-- What the properties of one schema have in common: the required names, the name of the schema,
and the discriminator that fixes one of the properties. -/
structure PropertyContext where
  required : List Node
  parent : String
  discriminator : Option Node

def propertyContext (scope : Scope) (schema : Node) (parent : String) : PropertyContext where
  required := requiredNames schema
  parent := parent
  discriminator := if parent.isEmpty then none else scope.discriminator? parent

/-- The value to which a property is fixed, if it is. -/
def PropertyContext.valueOf (context : PropertyContext) (scope : Scope) (name : String) :
    Except Failure (Option String) :=
  match context.discriminator with
  | some d =>
    if (d.get "propertyName").isText name then (scope.fixedValue context.parent d).map some
    else .ok none
  | none => .ok none

/-- All references that building can meet, if it begins with the schema `root`. -/
def known (scope : Scope) (root : Node) : List String :=
  scope.document.references ++ root.references

/-- The references that can still be followed. -/
def unfollowed (scope : Scope) (root : Node) (following : List String) : List String :=
  (known scope root).filter (!following.contains ·)

/-- Whether all references in a value can be met. -/
def Within (scope : Scope) (root node : Node) : Prop := ∀ r ∈ node.references, r ∈ known scope root

def WithinItems (scope : Scope) (root : Node) (items : List Node) : Prop :=
  ∀ r ∈ Node.referencesOfItems items, r ∈ known scope root

def WithinEntries (scope : Scope) (root : Node) (entries : Entries) : Prop :=
  ∀ r ∈ Node.referencesOfEntries entries, r ∈ known scope root

theorem within_root (scope : Scope) (root : Node) : Within scope root root :=
  fun _ hr => List.mem_append.mpr (.inr hr)

theorem within_of_resolve {scope : Scope} {root ref target : Node}
    (h : Reference.resolve scope.document ref = .ok target) : Within scope root target :=
  fun r hr => List.mem_append.mpr (.inl (Reference.references_subset_of_resolve h r hr))

theorem Within.parts {scope : Scope} {root schema : Node} {found : Shape}
    (h : Within scope root schema) (hs : shape schema = .ok found) :
    WithinItems scope root found.parts :=
  fun r hr => h r ((partsOf_shape hs).references_subset r hr)

theorem Within.part {scope : Scope} {root schema part : Node} {found : Shape}
    (h : Within scope root schema) (hs : shape schema = .ok found) (hp : found.parts = [part]) :
    Within scope root part := by
  have := h.parts hs
  rw [hp] at this
  simpa [WithinItems, Node.referencesOfItems, Within] using this

theorem Within.entries {scope : Scope} {root schema : Node} {key : String} {entries : Entries}
    (h : Within scope root schema) (hg : schema.get? key = some (.map entries)) :
    WithinEntries scope root entries :=
  fun r hr => h r (Node.references_subset_of_get? hg r (by simpa [Node.references] using hr))

theorem WithinItems.head {scope : Scope} {root member : Node} {rest : List Node}
    (h : WithinItems scope root (member :: rest)) : Within scope root member :=
  fun r hr => h r (by simp [Node.referencesOfItems, hr])

theorem WithinItems.tail {scope : Scope} {root member : Node} {rest : List Node}
    (h : WithinItems scope root (member :: rest)) : WithinItems scope root rest :=
  fun r hr => h r (by simp [Node.referencesOfItems, hr])

theorem WithinEntries.head {scope : Scope} {root schema : Node} {key : Scalar} {rest : Entries}
    (h : WithinEntries scope root ((key, schema) :: rest)) : Within scope root schema :=
  fun r hr => h r (by simp [Node.referencesOfEntries, hr])

theorem WithinEntries.tail {scope : Scope} {root schema : Node} {key : Scalar} {rest : Entries}
    (h : WithinEntries scope root ((key, schema) :: rest)) : WithinEntries scope root rest :=
  fun r hr => h r (by simp [Node.referencesOfEntries, hr])

/-- Following one more reference leaves fewer of them. -/
theorem length_unfollowed_cons_lt {scope : Scope} {root : Node} {following : List String}
    {ref : String} (hk : ref ∈ known scope root) (hf : ¬ ref ∈ following) :
    (unfollowed scope root (ref :: following)).length <
      (unfollowed scope root following).length := by
  unfold unfollowed
  have split : (known scope root).filter (!(ref :: following).contains ·) =
      ((known scope root).filter (!following.contains ·)).filter (· != ref) := by
    rw [List.filter_filter]
    refine List.filter_congr fun r _ => ?_
    simp only [List.contains_cons, Bool.not_or]
    rfl
  rw [split]
  exact List.length_filter_lt_length_iff_exists.mpr
    ⟨ref, List.mem_filter.mpr ⟨hk, by simpa using hf⟩, by simp⟩

theorem sizeEntries_lt_of_get? {key : String} {schema : Node} {entries : Entries}
    (h : schema.get? key = some (.map entries)) : Node.sizeEntries entries < schema.size := by
  have := Node.size_lt_of_get? h
  simp only [Node.size] at this
  omega

/-- The order in which building goes down: fewer references to follow, or a smaller schema, or a
step that comes earlier for the same schema. -/
theorem lex_of_le {pending size size' step step' : Nat} (hs : size ≤ size') (ht : step < step') :
    Prod.Lex (· < ·) (Prod.Lex (· < ·) (· < ·)) (pending, size, step) (pending, size', step') := by
  rcases Nat.lt_or_eq_of_le hs with h | rfl
  · exact Prod.Lex.right _ (Prod.Lex.left _ _ h)
  · exact Prod.Lex.right _ (Prod.Lex.right _ ht)

theorem lex_of_lt {pending size size' step step' : Nat} (hs : size < size') :
    Prod.Lex (· < ·) (Prod.Lex (· < ·) (· < ·)) (pending, size, step) (pending, size', step') :=
  Prod.Lex.right _ (Prod.Lex.left _ _ hs)

theorem sizeItems_lt_cons (member : Node) (rest : List Node) :
    Node.sizeItems rest < Node.sizeItems (member :: rest) := by
  have := Node.size_pos member
  simp only [Node.sizeItems]
  omega

theorem size_le_sizeItems_cons (member : Node) (rest : List Node) :
    member.size ≤ Node.sizeItems (member :: rest) := by
  simp only [Node.sizeItems]
  omega

theorem sizeEntries_lt_cons (key : Scalar) (schema : Node) (rest : Entries) :
    Node.sizeEntries rest < Node.sizeEntries ((key, schema) :: rest) := by
  have := Node.size_pos schema
  simp only [Node.sizeEntries]
  omega

theorem size_le_sizeEntries_cons (key : Scalar) (schema : Node) (rest : Entries) :
    schema.size ≤ Node.sizeEntries ((key, schema) :: rest) := by
  simp only [Node.sizeEntries]
  omega

mutual

/-- The model of a schema, while the given references are followed. -/
def buildIn (scope : Scope) (root : Node) (following : List String) (schema : Node)
    (name : String) (isDefinition : Bool) (within : Within scope root schema) :
    Except Failure Model :=
  let model := plainModel schema name isDefinition
  match _h : shape schema with
  | .error failure => .error failure
  | .ok (.reference ref) =>
    match Reference.resolve scope.document ref with
    | .error failure => .error failure
    | .ok _ =>
      match scope.typeOf ref .null with
      | .error failure => .error failure
      | .ok use => withDefault schema (withType { model with kind := .reference } use)
  | .ok (.enumeration type members) =>
    withDefault schema
      { model with
        kind := .enumeration
        type := type
        base := type
        enumerators := members }
  | .ok (.array items) =>
    match buildElement scope root following items (within.part _h rfl) with
    | .error failure => .error failure
    | .ok (element, link) => withDefault schema (withElement model .array element link)
  | .ok (.dictionary values) =>
    match buildElement scope root following values (within.part _h rfl) with
    | .error failure => .error failure
    | .ok (element, link) => withDefault schema (withElement model .dictionary element link)
  | .ok (.composition kind members) =>
    match buildMembers scope root following members (within.parts _h) with
    | .error failure => .error failure
    | .ok children =>
      let required := requiredNames schema
      match
        if required.isEmpty then .ok []
        else candidates scope root following members (within.parts _h) with
      | .error failure => .error failure
      | .ok found =>
        match buildProperties scope root following schema name within with
        | .error failure => .error failure
        | .ok declared =>
          .ok (withMembers model kind children (promote required found ++ declared))
  | .ok .record =>
    match buildProperties scope root following schema name within with
    | .error failure => .error failure
    | .ok properties => withDefault schema (withProperties model properties)
  | .ok (.generic type) =>
    match scope.typeOf type (schema.get "format") with
    | .error failure => .error failure
    | .ok use => withDefault schema (withType model use)
  | .ok .unknown => .ok model
termination_by ((unfollowed scope root following).length, schema.size, 1)
decreasing_by
  · exact lex_of_lt (size_lt_of_shape _h)
  · exact lex_of_lt (size_lt_of_shape _h)
  · exact lex_of_lt (size_lt_of_shape _h)
  · exact lex_of_lt (size_lt_of_shape _h)
  · exact lex_of_le (Nat.le_refl _) (by omega)
  · exact lex_of_le (Nat.le_refl _) (by omega)

/-- The model of the elements of a container, and the link to it; a reference is named, not
linked. -/
def buildElement (scope : Scope) (root : Node) (following : List String) (node : Node)
    (within : Within scope root node) : Except Failure (Model × Option Model) :=
  match node.get? "$ref" with
  | some ref =>
    match Reference.resolve scope.document ref with
    | .error failure => .error failure
    | .ok _ =>
      match scope.typeOf ref .null with
      | .error failure => .error failure
      | .ok use => .ok ({ toTypeText := use.toTypeText, imports := use.imports }, none)
  | none =>
    match buildIn scope root following node "" false within with
    | .error failure => .error failure
    | .ok element => .ok (element, some element)
termination_by ((unfollowed scope root following).length, node.size, 2)
decreasing_by exact lex_of_le (Nat.le_refl _) (by omega)

def buildMembers (scope : Scope) (root : Node) (following : List String) :
    (members : List Node) → WithinItems scope root members → Except Failure (List Model)
  | [], _ => .ok []
  | member :: rest, within =>
    match buildIn scope root following member "" false within.head with
    | .error failure => .error failure
    | .ok child =>
      match buildMembers scope root following rest within.tail with
      | .error failure => .error failure
      | .ok children => .ok (child :: children)
termination_by members => ((unfollowed scope root following).length, Node.sizeItems members, 2)
decreasing_by
  · exact lex_of_le (size_le_sizeItems_cons _ _) (by omega)
  · exact lex_of_lt (sizeItems_lt_cons _ _)

/-- The properties that the members of a composition, or the targets of members that are
references, declare. -/
def candidates (scope : Scope) (root : Node) (following : List String) :
    (members : List Node) → WithinItems scope root members → Except Failure (List Model)
  | [], _ => .ok []
  | member :: rest, within =>
    match memberProperties scope root following member within.head with
    | .error failure => .error failure
    | .ok found =>
      match candidates scope root following rest within.tail with
      | .error failure => .error failure
      | .ok others => .ok (found ++ others)
termination_by members => ((unfollowed scope root following).length, Node.sizeItems members, 3)
decreasing_by
  · exact lex_of_le (size_le_sizeItems_cons _ _) (by omega)
  · exact lex_of_lt (sizeItems_lt_cons _ _)

/-- The properties of one member.  A member that refers to what is just being followed has none to
add. -/
def memberProperties (scope : Scope) (root : Node) (following : List String) (member : Node)
    (within : Within scope root member) : Except Failure (List Model) :=
  match _hg : member.get? "$ref" with
  | some (.str ref) =>
    if _hf : ref ∈ following then .ok []
    else
      match _hr : Reference.resolve scope.document (.str ref) with
      | .error failure => .error failure
      | .ok target =>
        (buildIn scope root (ref :: following) target "" false (within_of_resolve _hr)).map
          (·.properties)
  | some other =>
    match Reference.resolve scope.document other with
    | .error failure => .error failure
    | .ok _ => .ok []
  | none => (buildIn scope root following member "" false within).map (·.properties)
termination_by ((unfollowed scope root following).length, member.size, 2)
decreasing_by
  · exact Prod.Lex.left _ _
      (length_unfollowed_cons_lt (within _ (Node.mem_references_of_get? _hg)) _hf)
  · exact lex_of_le (Nat.le_refl _) (by omega)

def buildProperties (scope : Scope) (root : Node) (following : List String) (schema : Node)
    (parent : String) (within : Within scope root schema) : Except Failure (List Model) :=
  match _h : schema.get? "properties" with
  | some (.map entries) =>
    buildEntries scope root following (propertyContext scope schema parent) entries
      (within.entries _h)
  | _ => .ok []
termination_by ((unfollowed scope root following).length, schema.size, 0)
decreasing_by exact lex_of_lt (sizeEntries_lt_of_get? _h)

def buildEntries (scope : Scope) (root : Node) (following : List String)
    (context : PropertyContext) :
    (entries : Entries) → WithinEntries scope root entries → Except Failure (List Model)
  | [], _ => .ok []
  | (key, schema) :: rest, within =>
    match key.written with
    | .error failure => .error failure
    | .ok name =>
      match buildProperty scope root following context name schema within.head with
      | .error failure => .error failure
      | .ok property =>
        match buildEntries scope root following context rest within.tail with
        | .error failure => .error failure
        | .ok others => .ok (property :: others)
termination_by entries => ((unfollowed scope root following).length, Node.sizeEntries entries, 3)
decreasing_by
  · exact lex_of_le (size_le_sizeEntries_cons _ _ _) (by omega)
  · exact lex_of_lt (sizeEntries_lt_cons _ _ _)

/-- One property, with the name and the necessity that it has in its record. -/
def buildProperty (scope : Scope) (root : Node) (following : List String)
    (context : PropertyContext) (name : String) (schema : Node)
    (within : Within scope root schema) : Except Failure Model :=
  let isRequired := Node.listHas name context.required
  match context.valueOf scope name with
  | .error failure => .error failure
  | .ok (some value) => .ok (asProperty name isRequired (fixedProperty schema value))
  | .ok none =>
    (buildIn scope root following schema "" false within).map (asProperty name isRequired)
termination_by ((unfollowed scope root following).length, schema.size, 2)
decreasing_by exact lex_of_le (Nat.le_refl _) (by omega)

end

def build (scope : Scope) (schema : Node) (name : String) (isDefinition : Bool) :
    Except Failure Model :=
  buildIn scope schema [] schema name isDefinition (within_root scope schema)

end OpenApi.Schema
