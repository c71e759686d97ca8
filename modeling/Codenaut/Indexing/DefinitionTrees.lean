import Codenaut.Indexing.TreeDefinitions

/-!
# Definitions in syntax trees

The definitions of a tree in preorder, each with those around it, and what the
grammar says of the nodes: where the names and bodies of definitions are, and that
a definition holds others in its body only.
-/

set_option autoImplicit false

namespace Codenaut.Indexing

open Codenaut.Db Codenaut.Text

/-- A definition with those around it, outermost first. -/
structure Occurrence where
  definition : Node
  enclosing : List Node

mutual

/-- A node and all nodes below it, in preorder. -/
def Node.nodes : Node → List Node
  | .node info children => .node info children :: nodesIn children

def nodesIn : List Node → List Node
  | [] => []
  | node :: rest => node.nodes ++ nodesIn rest

end

mutual

/-- The definitions at a node and below it, in preorder. -/
def Node.definitions (enclosing : List Node) : Node → List Occurrence
  | .node info children =>
      if isDefinition (.node info children) then
        ⟨.node info children, enclosing⟩ ::
          definitionsIn (enclosing ++ [.node info children]) children
      else definitionsIn enclosing children

def definitionsIn (enclosing : List Node) : List Node → List Occurrence
  | [] => []
  | node :: rest => node.definitions enclosing ++ definitionsIn enclosing rest

end

/-- No definition is at the node or below it. -/
def Node.Free (node : Node) : Prop := ∀ below ∈ node.nodes, isDefinition below = false

instance (node : Node) : Decidable node.Free :=
  inferInstanceAs (Decidable (∀ below ∈ node.nodes, isDefinition below = false))

def inField (name : String) (node : Node) : Bool := node.info.fieldName = some name

/-- The children beside the one that `child_by_field_name` gives. -/
def Node.beside (node : Node) (name : String) : List Node :=
  node.children.eraseP (inField name)

/-- What the grammar says of a node. An anonymous node is a token. -/
structure Grammatical (node : Node) : Prop where
  anonymous : node.info.isNamed = false → node.Free
  named : isDefinition node = true → (node.childByFieldName "name").isSome = true
  bodied : isDefinition node = true →
    (node.childByFieldName "body").any (isDefinition · = false) = true
  nested : isDefinition node = true → ∀ child ∈ node.beside "body", child.Free
  decorated : node.type = "decorated_definition" → ∀ child ∈ node.beside "definition", child.Free

instance (node : Node) : Decidable (Grammatical node) :=
  decidable_of_iff
    ((node.info.isNamed = false → node.Free) ∧
      (isDefinition node = true → (node.childByFieldName "name").isSome = true) ∧
      (isDefinition node = true →
        (node.childByFieldName "body").any (isDefinition · = false) = true) ∧
      (isDefinition node = true → ∀ child ∈ node.beside "body", child.Free) ∧
      (node.type = "decorated_definition" → ∀ child ∈ node.beside "definition", child.Free))
    ⟨fun ⟨anonymous, named, bodied, nested, decorated⟩ =>
        ⟨anonymous, named, bodied, nested, decorated⟩,
      fun ⟨anonymous, named, bodied, nested, decorated⟩ =>
        ⟨anonymous, named, bodied, nested, decorated⟩⟩

/-- Every node of the tree is as the grammar says. -/
def GrammaticalTree (root : Node) : Prop := ∀ node ∈ root.nodes, Grammatical node

/-- The definitions of a file, whose root is the module. -/
def moduleDefinitions (root : Node) : List Occurrence := definitionsIn [] root.children

section Nodes

variable {node child : Node} {enclosing nodes : List Node}

theorem nodesIn_eq (nodes : List Node) : nodesIn nodes = nodes.flatMap Node.nodes := by
  induction nodes with
  | nil => rfl
  | cons node rest ih => rw [nodesIn, ih, List.flatMap_cons]

theorem definitionsIn_eq (enclosing nodes : List Node) :
    definitionsIn enclosing nodes = nodes.flatMap (Node.definitions enclosing) := by
  induction nodes with
  | nil => rfl
  | cons node rest ih => rw [definitionsIn, ih, List.flatMap_cons]

theorem Node.nodes_eq (node : Node) : node.nodes = node :: nodesIn node.children := by
  cases node
  rfl

theorem Node.definitions_of_definition (definition : isDefinition node = true) :
    node.definitions enclosing =
      ⟨node, enclosing⟩ :: definitionsIn (enclosing ++ [node]) node.children := by
  cases node
  rw [definitions, if_pos definition]
  rfl

theorem Node.definitions_of_other (other : isDefinition node = false) :
    node.definitions enclosing = definitionsIn enclosing node.children := by
  cases node
  rw [definitions, if_neg (by simp [other])]
  rfl

theorem Node.children_induction {Holds : Node → Prop}
    (step : ∀ node, (∀ child ∈ node.children, Holds child) → Holds node) (node : Node) :
    Holds node :=
  step node fun child _ => children_induction step child
termination_by sizeOf node
decreasing_by
  have below := List.sizeOf_lt_of_mem (a := child) (by assumption)
  exact Nat.lt_trans below node.sizeOf_children

theorem Node.mem_nodes_self (node : Node) : node ∈ node.nodes := by
  rw [nodes_eq]
  exact List.mem_cons_self

theorem Node.mem_nodes_child (member : child ∈ node.children) : child ∈ node.nodes := by
  rw [nodes_eq, nodesIn_eq]
  exact List.mem_cons_of_mem _ (List.mem_flatMap.mpr ⟨child, member, child.mem_nodes_self⟩)

/-- Below a node lies what is below the nodes below it. -/
theorem Node.mem_nodes_trans {below deeper : Node} (inside : below ∈ node.nodes)
    (within : deeper ∈ below.nodes) : deeper ∈ node.nodes := by
  induction node using Node.children_induction with
  | step node ih =>
      rw [nodes_eq, nodesIn_eq] at inside
      rcases List.mem_cons.mp inside with rfl | later
      · exact within
      · obtain ⟨child, member, reached⟩ := List.mem_flatMap.mp later
        rw [nodes_eq, nodesIn_eq]
        exact List.mem_cons_of_mem _ (List.mem_flatMap.mpr ⟨child, member, ih child member reached⟩)

theorem Node.Free.below (free : node.Free) (member : child ∈ node.children) : child.Free :=
  fun _ within => free _ (Node.mem_nodes_trans (Node.mem_nodes_child member) within)

theorem Node.Free.definitions (free : node.Free) : node.definitions enclosing = [] := by
  induction node using Node.children_induction with
  | step node ih =>
      rw [Node.definitions_of_other (free node node.mem_nodes_self), definitionsIn_eq,
        List.flatMap_eq_nil_iff]
      exact fun child member => ih child member (free.below member)

theorem definitionsIn_free (free : ∀ child ∈ nodes, child.Free) :
    definitionsIn enclosing nodes = [] := by
  rw [definitionsIn_eq, List.flatMap_eq_nil_iff]
  exact fun child member => (free child member).definitions

/-- Of the children only one holds definitions. -/
theorem definitionsIn_field {name : String} (found : node.childByFieldName name = some child)
    (free : ∀ other ∈ node.beside name, other.Free) :
    definitionsIn enclosing node.children = child.definitions enclosing := by
  obtain ⟨-, before, after, split, earlier⟩ := List.find?_eq_some_iff_append.mp found
  have others : node.beside name = before ++ after := by
    rw [Node.beside, split, List.eraseP_append_right _ (by simpa [inField] using earlier)]
    have field := List.find?_some found
    rw [List.eraseP_cons_of_pos (by simpa [inField] using field)]
  rw [others] at free
  have front := @definitionsIn_free enclosing before fun other member =>
    free other (List.mem_append_left _ member)
  have back := @definitionsIn_free enclosing after fun other member =>
    free other (List.mem_append_right _ member)
  rw [definitionsIn_eq] at front back
  rw [split, definitionsIn_eq, List.flatMap_append, List.flatMap_cons, front, back,
    List.nil_append, List.append_nil]

/-- Anonymous nodes hold no definition. -/
theorem definitionsIn_named (anonymous : ∀ other ∈ nodes,
    other.info.isNamed = false → other.Free) :
    definitionsIn enclosing (nodes.filter (·.info.isNamed)) = definitionsIn enclosing nodes := by
  induction nodes with
  | nil => rfl
  | cons first rest ih =>
      have later := ih fun other member => anonymous other (List.mem_cons_of_mem _ member)
      rw [List.filter_cons, definitionsIn]
      split
      · rw [definitionsIn, later]
      · next unnamed =>
          have free := anonymous first List.mem_cons_self (by simpa using unnamed)
          rw [free.definitions, List.nil_append, later]

end Nodes

end Codenaut.Indexing
