import Codenaut.Indexing.CallSites
import Codenaut.Text.Offsets

/-!
# Well-formed syntax trees

What the parser library promises of the nodes that are visited: their offsets
lie on character boundaries and give their points, children lie within their
parent in order, and a call opens with the called expression.
-/

set_option autoImplicit false

namespace Codenaut.Indexing

open Codenaut.Db Codenaut.Relational Codenaut.Text

/-! ## Visited nodes -/

theorem visited_append (left right : List Node) :
    visited (left ++ right) = visited left ++ visited right := by
  induction left using visited.induct with
  | case1 => simp [visited]
  | case2 node pending ih =>
      rw [List.cons_append, visited, visited, ← List.append_assoc, ih, List.cons_append]

theorem visited_cons (node : Node) (rest : List Node) :
    visited (node :: rest) = node :: (visited node.namedChildren ++ visited rest) := by
  rw [visited, visited_append]

theorem visited_single (node : Node) : visited [node] = node :: visited node.namedChildren := by
  rw [visited_cons, visited, List.append_nil]

/-- A visited node is visited from one of the given nodes. -/
theorem mem_visited_iff {nodes : List Node} {node : Node} :
    node ∈ visited nodes ↔ ∃ top ∈ nodes, node ∈ visited [top] := by
  induction nodes with
  | nil => simp [visited]
  | cons first rest ih =>
      rw [← List.singleton_append, visited_append, List.mem_append, ih, List.singleton_append,
        List.exists_mem_cons_iff]

/-! ## Laws of a node -/

/-- The first named child of a call is its function, which starts where the call
does. What follows starts later or opens with a bracket of its own, and the
arguments among it are not empty. -/
structure CallLaws (call function : Node) (others : List Node) : Prop where
  children : call.namedChildren = function :: others
  opening : function.info.startByte = call.info.startByte
  later : ∀ other ∈ others, call.info.startByte < other.info.startByte ∨
    other.type ≠ "call" ∧
      ∀ inner ∈ other.namedChildren, call.info.startByte < inner.info.startByte
  arguments : ∃ arguments ∈ others, arguments.info.startByte < arguments.info.endByte

structure NodeLaws (source : List Char) (node : Node) : Prop where
  start : positionAt source node.info.startByte =
    some (node.info.startPoint.row, node.info.startPoint.column)
  stop : positionAt source node.info.endByte =
    some (node.info.endPoint.row, node.info.endPoint.column)
  ordered : node.info.startByte ≤ node.info.endByte
  inside : ∀ child ∈ node.namedChildren,
    node.info.startByte ≤ child.info.startByte ∧ child.info.endByte ≤ node.info.endByte
  apart : node.namedChildren.Pairwise fun left right =>
    left.info.endByte ≤ right.info.startByte
  fields : ∀ name ∈ ["definition", "body"], ∀ child,
    node.childByFieldName name = some child → child.info.isNamed = true
  call : node.type = "call" → ∀ function, node.childByFieldName "function" = some function →
    ∃ others, CallLaws node function others

theorem NodeLaws.field {source : List Char} {node child : Node} (laws : NodeLaws source node)
    {name : String} (listed : name ∈ ["definition", "body"])
    (found : node.childByFieldName name = some child) : child ∈ node.namedChildren :=
  List.mem_filter.mpr ⟨List.mem_of_find?_eq_some found, laws.fields name listed child found⟩

/-- Every node that the parser visits obeys the laws. -/
def WellFormed (source : List Char) (root : Node) : Prop :=
  ∀ node ∈ visited [root], NodeLaws source node

theorem WellFormed.laws {source : List Char} {node : Node} (wellFormed : WellFormed source node) :
    NodeLaws source node :=
  wellFormed node (by rw [visited_single]; exact .head _)

theorem WellFormed.child {source : List Char} {node child : Node}
    (wellFormed : WellFormed source node) (member : child ∈ node.namedChildren) :
    WellFormed source child := by
  intro below within
  apply wellFormed below
  rw [visited_single]
  exact .tail _ (mem_visited_iff.mpr ⟨child, member, within⟩)

/-- An induction over the nodes of a tree. -/
theorem Node.named_induction {Holds : Node → Prop}
    (step : ∀ node, (∀ child ∈ node.namedChildren, Holds child) → Holds node) (node : Node) :
    Holds node :=
  step node fun child _ => named_induction step child
termination_by sizeOf node
decreasing_by
  have below := List.sizeOf_lt_of_mem (a := child) (by assumption)
  exact Nat.lt_trans below node.sizeOf_namedChildren

theorem WellFormed.below {source : List Char} {node below : Node}
    (wellFormed : WellFormed source node) (member : below ∈ visited [node]) :
    WellFormed source below := by
  induction node using Node.named_induction with
  | step node ih =>
      rw [visited_single] at member
      rcases List.mem_cons.mp member with rfl | inside
      · exact wellFormed
      · obtain ⟨child, within, reached⟩ := mem_visited_iff.mp inside
        exact ih child within (wellFormed.child within) reached

/-! ## Checked trees -/

/-- The laws of a call that can be seen: its first child is its function. -/
def callOpens (call : Node) : Bool :=
  match call.children with
  | [] => false
  | function :: rest =>
      let others := rest.filter (·.info.isNamed)
      function.info.isNamed && function.info.fieldName == some "function" &&
        function.info.startByte == call.info.startByte &&
        others.all (fun other => decide (call.info.startByte < other.info.startByte)) &&
        others.any fun arguments => decide (arguments.info.startByte < arguments.info.endByte)

def lawful (source : List Char) (node : Node) : Bool :=
  decide (positionAt source node.info.startByte =
      some (node.info.startPoint.row, node.info.startPoint.column)) &&
    decide (positionAt source node.info.endByte =
      some (node.info.endPoint.row, node.info.endPoint.column)) &&
    decide (node.info.startByte ≤ node.info.endByte) &&
    node.namedChildren.all (fun child => decide (node.info.startByte ≤ child.info.startByte) &&
      decide (child.info.endByte ≤ node.info.endByte)) &&
    decide (node.namedChildren.Pairwise fun left right =>
      left.info.endByte ≤ right.info.startByte) &&
    ["definition", "body"].all (fun name => (node.childByFieldName name).all (·.info.isNamed)) &&
    (node.type != "call" || callOpens node)

theorem callLaws_of_opens {call function : Node} (opens : callOpens call = true)
    (called : call.childByFieldName "function" = some function) :
    ∃ others, CallLaws call function others := by
  unfold callOpens at opens
  split at opens
  · cases opens
  case h_2 first rest children =>
    simp only [Bool.and_eq_true, beq_iff_eq, List.all_eq_true, List.any_eq_true,
      decide_eq_true_eq] at opens
    obtain ⟨⟨⟨⟨named, field⟩, opening⟩, later⟩, arguments⟩ := opens
    have same : first = function := by
      rw [Node.childByFieldName, children, List.find?_cons_of_pos (by simpa using field)] at called
      exact Option.some.inj called
    subst same
    refine ⟨rest.filter (·.info.isNamed), ?_, opening, fun other member => .inl (later other member),
      arguments⟩
    rw [Node.namedChildren, children]
    exact List.filter_cons_of_pos named

theorem nodeLaws_of_lawful {source : List Char} {node : Node}
    (checked : lawful source node = true) : NodeLaws source node := by
  simp only [lawful, Bool.and_eq_true, Bool.or_eq_true, bne_iff_ne, List.all_eq_true,
    decide_eq_true_eq] at checked
  obtain ⟨⟨⟨⟨⟨⟨start, stop⟩, ordered⟩, inside⟩, apart⟩, fields⟩, call⟩ := checked
  refine ⟨start, stop, ordered, inside, apart, ?_, ?_⟩
  · intro name listed child found
    have named := fields name listed
    rwa [found, Option.all_some] at named
  intro isCall function called
  exact callLaws_of_opens (call.resolve_left fun other => other isCall) called

/-- A tree is well formed when every visited node passes the check. -/
theorem wellFormed_of_lawful {source : List Char} {root : Node}
    (checked : (visited [root]).all (lawful source) = true) : WellFormed source root :=
  fun node member => nodeLaws_of_lawful (List.all_eq_true.mp checked node member)

/-! ## Texts of nodes -/

theorem takeBytes_front (front back : List Char) :
    takeBytes (byteLength front) (front ++ back) = front := by
  induction front with
  | nil => cases back <;> rfl
  | cons char rest ih =>
      have positive := char.utf8Size_pos
      obtain ⟨count, counted⟩ := Nat.exists_eq_succ_of_ne_zero
        (n := byteLength (char :: rest)) (by rw [byteLength_cons]; omega)
      rw [counted, List.cons_append, takeBytes]
      rw [byteLength_cons] at counted
      have left : count + 1 - char.utf8Size = byteLength rest := by omega
      rw [left, ih]

theorem dropBytes_front (front back : List Char) :
    dropBytes (byteLength front) (front ++ back) = back := by
  induction front with
  | nil => cases back <;> rfl
  | cons char rest ih =>
      have positive := char.utf8Size_pos
      obtain ⟨count, counted⟩ := Nat.exists_eq_succ_of_ne_zero
        (n := byteLength (char :: rest)) (by rw [byteLength_cons]; omega)
      rw [counted, List.cons_append, dropBytes]
      rw [byteLength_cons] at counted
      have left : count + 1 - char.utf8Size = byteLength rest := by omega
      rw [left, ih]

/-- Between two boundaries lies the text of the bytes between them. -/
theorem textRange_between (front middle back : List Char) :
    textRange (byteLength front) (byteLength (front ++ middle)) (front ++ middle ++ back) =
      middle := by
  have length : byteLength (front ++ middle) - byteLength front = byteLength middle := by
    rw [byteLength_append]
    omega
  rw [textRange, List.append_assoc, dropBytes_front, length, takeBytes_front]

/-- The text of a node has as many bytes as the node spans. -/
theorem nodeText_size {source : List Char} {node : Node} (laws : NodeLaws source node) :
    (nodeText node source).utf8ByteSize = node.info.endByte - node.info.startByte := by
  obtain ⟨front, back, boundary, -⟩ := positionFrom_some laws.start
  obtain ⟨later, rest, ending, -⟩ := positionFrom_some laws.stop
  obtain ⟨middle, rfl⟩ := boundary.prefix_of_le ending laws.ordered
  rw [nodeText, utf8ByteSize_ofList, ← boundary.length, ← ending.length, ending.split,
    textRange_between, byteLength_append]
  omega

/-- Rows do not decrease from a byte to a later one. -/
theorem row_le_of_le {source : List Char} {first second : Nat} {here there : Point}
    (starts : positionAt source first = some (here.row, here.column))
    (ends : positionAt source second = some (there.row, there.column)) (le : first ≤ second) :
    here.row ≤ there.row := by
  rcases Prod.Lex.toLex_le_toLex.mp (positionAt_le starts ends le) with less | ⟨same, -⟩
  · exact Nat.le_of_lt less
  · exact Nat.le_of_eq same

/-! ## Nodes below others -/

section Below

variable {source : List Char} {nodes : List Node}

/-- What is visited from a node lies within it. -/
theorem visited_within {top node : Node} (laws : WellFormed source top)
    (member : node ∈ visited [top]) :
    top.info.startByte ≤ node.info.startByte ∧ node.info.endByte ≤ top.info.endByte := by
  induction top using Node.named_induction with
  | step top ih =>
      rw [visited_single] at member
      rcases List.mem_cons.mp member with rfl | below
      · exact ⟨le_refl _, le_refl _⟩
      · obtain ⟨child, within, reached⟩ := mem_visited_iff.mp below
        obtain ⟨starts, ends⟩ := ih child within (laws.child within) reached
        obtain ⟨begins, stops⟩ := laws.laws.inside child within
        exact ⟨begins.trans starts, ends.trans stops⟩

/-- Two calls that differ in where they start or in the text of their function. -/
def CallsApart (source : List Char) (first second : Node) : Prop :=
  first.type = "call" → second.type = "call" →
    ∀ function callee, first.childByFieldName "function" = some function →
      second.childByFieldName "function" = some callee →
      first.info.startPoint = second.info.startPoint →
      nodeText function source ≠ nodeText callee source

theorem startByte_eq {first second : Node} (laws : NodeLaws source first)
    (others : NodeLaws source second) (same : first.info.startPoint = second.info.startPoint) :
    first.info.startByte = second.info.startByte := by
  have there := others.start
  rw [← same] at there
  exact positionAt_injective laws.start there

/-- A call goes on behind its function, with the arguments. -/
theorem function_shorter {call function : Node} (laws : NodeLaws source call)
    {others : List Node} (callLaws : CallLaws call function others) :
    function.info.endByte < call.info.endByte := by
  obtain ⟨arguments, member, filled⟩ := callLaws.arguments
  have apart := laws.apart
  rw [callLaws.children, List.pairwise_cons] at apart
  have before := apart.1 arguments member
  have within := (laws.inside arguments (by rw [callLaws.children]; exact .tail _ member)).2
  omega

/-- A call below another starts later, or ends within its function. -/
theorem below_call {call function below : Node} {others : List Node}
    (callLaws : CallLaws call function others) (isCall : below.type = "call")
    (laws : ∀ child ∈ call.namedChildren, WellFormed source child)
    (member : below ∈ visited call.namedChildren) :
    call.info.startByte < below.info.startByte ∨
      below.info.endByte ≤ function.info.endByte := by
  rw [callLaws.children] at member laws
  obtain ⟨top, within, found⟩ := mem_visited_iff.mp member
  have inside := visited_within (laws top within) found
  rcases List.mem_cons.mp within with rfl | other
  · exact .inr inside.2
  · left
    rcases callLaws.later top other with after | ⟨noCall, bracket⟩
    · omega
    · rw [visited_single] at found
      rcases List.mem_cons.mp found with rfl | deeper
      · exact absurd isCall noCall
      · obtain ⟨inner, child, reached⟩ := mem_visited_iff.mp deeper
        have starts := bracket inner child
        have within := visited_within ((laws top (.tail _ other)).child child) reached
        omega

theorem function_size {call function : Node} (laws : WellFormed source call)
    {others : List Node} (callLaws : CallLaws call function others) :
    (nodeText function source).utf8ByteSize = function.info.endByte - call.info.startByte := by
  have child : function ∈ call.namedChildren := by
    rw [callLaws.children]
    exact .head _
  rw [nodeText_size (laws.child child).laws, callLaws.opening]

/-- A call below another that starts with it lies within its function, so its
own function is shorter. -/
theorem below_apart {call below : Node} (laws : WellFormed source call)
    (member : below ∈ visited call.namedChildren) : CallsApart source call below := by
  intro isCall belowCall function callee called belowCalled same text
  obtain ⟨top, child, reached⟩ := mem_visited_iff.mp member
  have belowLaws := (laws.child child).below reached
  obtain ⟨others, callLaws⟩ := laws.laws.call isCall function called
  obtain ⟨rest, calleeLaws⟩ := belowLaws.laws.call belowCall callee belowCalled
  have starts := startByte_eq laws.laws belowLaws.laws same
  have shorter := function_shorter belowLaws.laws calleeLaws
  have sizes := congrArg String.utf8ByteSize text
  rw [function_size laws callLaws, function_size belowLaws calleeLaws] at sizes
  have opens : callee.info.startByte ≤ callee.info.endByte := by
    apply (belowLaws.child _).laws.ordered
    rw [calleeLaws.children]
    exact .head _
  have opening := calleeLaws.opening
  rcases below_call callLaws belowCall (fun child within => laws.child within) member
    with later | within
  · omega
  · omega

/-- A call after another starts later. -/
theorem later_apart {call later : Node} (laws : WellFormed source call)
    (laterLaws : NodeLaws source later) (after : call.info.endByte ≤ later.info.startByte) :
    CallsApart source call later := by
  intro isCall _ function _ called _ same _
  obtain ⟨others, callLaws⟩ := laws.laws.call isCall function called
  have child : function ∈ call.namedChildren := by
    rw [callLaws.children]
    exact .head _
  have shorter := function_shorter laws.laws callLaws
  have starts := startByte_eq laws.laws laterLaws same
  have ordered := (laws.child child).laws.ordered
  have opening := callLaws.opening
  omega

/-- Two calls visited at different places are told apart. -/
theorem visited_apart (laws : ∀ node ∈ nodes, WellFormed source node)
    (apart : nodes.Pairwise fun left right => left.info.endByte ≤ right.info.startByte) :
    (visited nodes).Pairwise (CallsApart source) := by
  induction nodes using visited.induct with
  | case1 =>
      rw [visited]
      exact .nil
  | case2 node pending ih =>
      have nodeLaws := laws node (.head _)
      obtain ⟨after, ordered⟩ := List.pairwise_cons.mp apart
      rw [visited, List.pairwise_cons]
      constructor
      · intro other member
        rw [visited_append] at member
        rcases List.mem_append.mp member with below | later
        · exact below_apart nodeLaws below
        · obtain ⟨top, within, reached⟩ := mem_visited_iff.mp later
          have topLaws := laws top (.tail _ within)
          have starts := (visited_within topLaws reached).1
          exact later_apart nodeLaws (topLaws other reached)
            ((after top within).trans starts)
      · apply ih
        · intro child member
          rcases List.mem_append.mp member with within | later
          · exact nodeLaws.child within
          · exact laws child (.tail _ later)
        · rw [List.pairwise_append]
          refine ⟨nodeLaws.laws.apart, ordered, fun child within other later => ?_⟩
          exact (nodeLaws.laws.inside child within).2.trans (after other later)

end Below

end Codenaut.Indexing
