import Codenaut.Indexing.CallerFiles
import Codenaut.Relational.StableSort

/-!
# Functions that run calls

A call runs in the innermost function whose body it stands in; decorators,
defaults and annotations of a definition run around it. The parser does not
follow the tree: it takes the shortest function whose lines hold the call's.
-/

set_option autoImplicit false

namespace Codenaut.Indexing

open Codenaut.Db Codenaut.Relational Codenaut.Text

/-! ## Bodies around a node -/

/-- The names of the definitions whose bodies a node stands in, the outermost
first, and the qualified name of the innermost function among them. A
definition without a name has no symbol, and neither has what is in it. -/
structure Surroundings where
  names : Option (List String)
  runner : Option String
  deriving DecidableEq, Repr

def moduleLevel : Surroundings :=
  ⟨some [], none⟩

def Surroundings.enter (file : SourceFile) (definition : Node) (around : Surroundings) :
    Surroundings :=
  let name := (definition.childByFieldName "name").map (nodeText · file.source)
  let names := around.names.bind fun names => name.map fun name => names ++ [name]
  { names := names
    runner :=
      if definition.type = "function_definition" then
        names.map fun names => joinText '.' (file.moduleName :: names)
      else around.runner }

/-- The surroundings of a child: only the body is inside a definition. -/
def Surroundings.ofChild (file : SourceFile) (node child : Node) (around : Surroundings) :
    Surroundings :=
  if isDefinition node ∧ child.info.fieldName = some "body" then around.enter file node
  else around

/-- The nodes in the order of the visit, each with its surroundings. -/
def surrounded (file : SourceFile) : List (Surroundings × Node) → List (Surroundings × Node)
  | [] => []
  | (around, node) :: pending =>
      (around, node) :: surrounded file
        (node.namedChildren.map (fun child => (around.ofChild file node child, child)) ++ pending)
termination_by entries => sizeOf (entries.map (·.2))
decreasing_by
  have := node.sizeOf_namedChildren
  have := sizeOf_append_le node.namedChildren (pending.map (·.2))
  simp only [List.map_append, List.map_map, Function.comp_def, List.map_id', List.map_cons,
    List.cons.sizeOf_spec]
  omega

theorem surrounded_nodes (file : SourceFile) (entries : List (Surroundings × Node)) :
    (surrounded file entries).map (·.2) = visited (entries.map (·.2)) := by
  induction entries using surrounded.induct file with
  | case1 => simp [surrounded, visited]
  | case2 around node pending ih =>
      rw [surrounded, List.map_cons, ih, List.map_cons, visited]
      simp [Function.comp_def]

/-! ## The function that the lines give -/

/-- The functions whose lines, from the end of the header on, hold the line. -/
def covering (symbols : List ParsedSymbol) (line : Nat) : List ParsedSymbol :=
  (symbols.filter isCallable).filter fun symbol =>
    symbol.headerEndLine ≤ line ∧ line ≤ symbol.endLine

/-- Fewer lines come before more, and of as many the later start. -/
def spanKey (symbol : ParsedSymbol) : Int ×ₗ Int :=
  toLex ((symbol.endLine : Int) - symbol.startLine, -(symbol.startLine : Int))

theorem callerAt_iff {symbols : List ParsedSymbol} {line : Nat} {caller : ParsedSymbol} :
    callerAt symbols line = some caller ↔ FirstLeast spanKey (covering symbols line) caller :=
  head_sortOn

/-! ## Functions that share a line -/

/-- The line is one of the function's, from the end of its header to its last. -/
structure Covers (function : ParsedSymbol) (line : Nat) : Prop where
  callable : isCallable function = true
  header : function.headerEndLine ≤ line
  body : line ≤ function.endLine

def lineSpan (function : ParsedSymbol) : Int :=
  (function.endLine : Int) - function.startLine

/-- The function has fewer lines than the other, or as many and starts later. -/
def Tighter (function other : ParsedSymbol) : Prop :=
  lineSpan function < lineSpan other ∨
    lineSpan function = lineSpan other ∧ other.startLine < function.startLine

/-- The line belongs to the function that runs what stands there: there is one, and a
function of another name on the line has one of the runner's name on it that is tighter,
or is written before it on the same lines. -/
structure OwnLine (symbols : List ParsedSymbol) (line : Nat) (around : Surroundings) : Prop where
  inBody : around.runner ≠ none
  apart : ∀ front stranger back, symbols = front ++ stranger :: back → Covers stranger line →
    around.runner ≠ some stranger.qualifiedName →
      ∃ own ∈ symbols, Covers own line ∧ around.runner = some own.qualifiedName ∧
        (Tighter own stranger ∨ own ∈ front ∧ lineSpan own = lineSpan stranger ∧
          own.startLine = stranger.startLine)

theorem mem_covering {symbols : List ParsedSymbol} {line : Nat} {function : ParsedSymbol} :
    function ∈ covering symbols line ↔ function ∈ symbols ∧ Covers function line := by
  rw [covering, List.mem_filter, List.mem_filter, decide_eq_true_eq]
  constructor
  · rintro ⟨⟨member, callable⟩, header, body⟩
    exact ⟨member, callable, header, body⟩
  · rintro ⟨member, callable, header, body⟩
    exact ⟨⟨member, callable⟩, header, body⟩

theorem spanKey_lt {function other : ParsedSymbol} :
    spanKey function < spanKey other ↔ Tighter function other := by
  rw [spanKey, spanKey, Prod.Lex.toLex_lt_toLex, Tighter, lineSpan, lineSpan]
  refine or_congr Iff.rfl (and_congr Iff.rfl ?_)
  dsimp only
  omega

theorem spanKey_eq {function other : ParsedSymbol} :
    spanKey function = spanKey other ↔
      lineSpan function = lineSpan other ∧ function.startLine = other.startLine := by
  rw [spanKey, spanKey, toLex_inj, Prod.mk.injEq, lineSpan, lineSpan]
  refine and_congr Iff.rfl ?_
  omega

/-- The first of the least functions on the line stands in the walk before what is
as tight. -/
theorem covering_split {symbols : List ParsedSymbol} {line : Nat} {function : ParsedSymbol}
    (least : FirstLeast spanKey (covering symbols line) function) :
    ∃ front back, symbols = front ++ function :: back ∧
      ∀ earlier ∈ front, Covers earlier line → spanKey function < spanKey earlier := by
  obtain ⟨kept, rest, whole, earlier, -⟩ := least.split
  rw [covering, List.filter_filter] at whole
  obtain ⟨front, later, split, keptFront, keptLater⟩ := List.filter_eq_append_iff.mp whole
  obtain ⟨skipped, back, after, missing, -, -⟩ := List.filter_eq_cons_iff.mp keptLater
  refine ⟨front ++ skipped, back, by rw [split, after, List.append_assoc], ?_⟩
  rintro other member ⟨callable, header, body⟩
  have holds : (decide (other.headerEndLine ≤ line ∧ line ≤ other.endLine) && isCallable other) =
      true := by
    simp [callable, header, body]
  rcases List.mem_append.mp member with before | between
  · exact earlier other (keptFront ▸ List.mem_filter.mpr ⟨before, holds⟩)
  · exact absurd holds (missing other between)

/-- The function that the lines give has the runner's name exactly when the line is
the runner's own. -/
theorem ownLine_iff {symbols : List ParsedSymbol} {line : Nat} {around : Surroundings}
    {function : ParsedSymbol} (least : FirstLeast spanKey (covering symbols line) function) :
    around.runner = some function.qualifiedName ↔ OwnLine symbols line around := by
  obtain ⟨member, covers⟩ := mem_covering.mp least.mem
  obtain ⟨front, back, split, earlier⟩ := covering_split least
  constructor
  · intro runner
    refine ⟨by simp [runner], ?_⟩
    intro before stranger after splitStranger holds other
    have apart : stranger ≠ function := by
      rintro rfl
      exact other runner
    have listed : stranger ∈ symbols := by simp [splitStranger]
    refine ⟨function, member, covers, runner, ?_⟩
    rcases (least.le (mem_covering.mpr ⟨listed, holds⟩)).lt_or_eq with tighter | same
    · exact .inl (spanKey_lt.mp tighter)
    · -- as tight: the stranger stands behind, or it would come first itself
      refine .inr ⟨?_, spanKey_eq.mp same⟩
      rw [split] at splitStranger
      rcases List.append_eq_append_iff.mp splitStranger with ⟨more, longer, tail⟩ |
        ⟨more, longer, tail⟩
      · cases more with
        | nil => exact absurd (List.cons.inj tail).1.symm apart
        | cons first more =>
            obtain ⟨rfl, -⟩ := List.cons.inj tail
            simp [longer]
      · cases more with
        | nil => exact absurd (List.cons.inj tail).1 apart
        | cons first more =>
            obtain ⟨rfl, -⟩ := List.cons.inj tail
            exact absurd same (earlier _ (by simp [longer]) holds).ne
  · rintro ⟨inBody, strangers⟩
    by_contra other
    obtain ⟨own, ownMember, ownCovers, -, before⟩ := strangers front function back split covers other
    rcases before with tighter | ⟨inFront, span, start⟩
    · exact absurd (spanKey_lt.mpr tighter)
        (not_lt_of_ge (least.le (mem_covering.mpr ⟨ownMember, ownCovers⟩)))
    · exact absurd (spanKey_eq.mpr ⟨span, start⟩) (earlier own inFront ownCovers).ne'

section Calls

variable (parser : PythonStaticParser) (platform : Platform) (file : SourceFile) (root : Node)

/-- The nodes of the file with the bodies around them. -/
def surroundedNodes : List (Surroundings × Node) :=
  surrounded file [(moduleLevel, root)]

/-- A call that the parser records: its function is not too long, and the lines
of some function hold it. -/
def RecordedCall (node : Node) : Prop :=
  node.type = "call" ∧
    (∃ function, node.childByFieldName "function" = some function ∧
      (nodeText function file.source).utf8ByteSize ≤ parser.maxCallExpressionBytes) ∧
    covering (walkedSymbols parser platform file root) (node.info.startPoint.row + 1) ≠ []

/-- The file has neither too many definitions nor too many calls. -/
def WithinLimits : Prop :=
  (walkedSymbols parser platform file root).length ≤ parser.maxSymbols ∧
    (sitesOf parser file (walkedSymbols parser platform file root) (visited [root])).length ≤
      parser.maxCallSites

/-- Every recorded call is attributed to the innermost function around it. -/
def CallsOwned : Prop :=
  ∀ entry ∈ surroundedNodes file root, ∀ site ∈ (parseTree parser platform file root).callSites,
    siteOf parser file (walkedSymbols parser platform file root) entry.2 = .site site →
      entry.1.runner = some site.callerQualifiedName

end Calls

section Proofs

variable {parser : PythonStaticParser} {platform : Platform} {file : SourceFile} {root : Node}

theorem collectCallSites_none {symbols : List ParsedSymbol} {result : List ParsedCallSite}
    {warnings : List String} {nodes : List Node}
    (stopped : collectCallSites parser file symbols result warnings nodes = none) :
    parser.maxCallSites < (result ++ sitesOf parser file symbols (visited nodes)).length := by
  induction result, warnings, nodes using collectCallSites.induct parser file symbols with
  | case1 result warnings =>
      rw [collectCallSites] at stopped
      cases stopped
  | case2 result warnings node pending next full =>
      rw [visited, sitesOf_cons]
      simp only [next] at full
      cases view : siteOf parser file symbols node with
      | none =>
          rw [view] at full
          rw [List.length_append]
          exact Nat.lt_add_right _ full
      | site site =>
          rw [view] at full
          simp only [viewedSite, Option.toList_some, List.length_append, List.length_cons,
            List.length_nil] at full ⊢
          omega
      | tooLarge =>
          rw [view] at full
          rw [List.length_append]
          exact Nat.lt_add_right _ full
  | case3 result warnings node pending next room ih =>
      rw [collectCallSites] at stopped
      simp only [next] at room ih
      rw [if_neg room] at stopped
      have beyond := ih stopped
      rw [visited, sitesOf_cons, ← List.append_assoc]
      cases view : siteOf parser file symbols node with
      | none => simpa only [view, viewedSite, Option.toList_none, List.append_nil] using beyond
      | site site => simpa only [view, viewedSite, Option.toList_some] using beyond
      | tooLarge => simpa only [view, viewedSite, Option.toList_none, List.append_nil] using beyond

/-- Within the limits every site of the tree is recorded. -/
theorem mem_callSites_of_within (within : WithinLimits parser platform file root)
    {node : Node} {site : ParsedCallSite} (member : node ∈ visited [root])
    (view : siteOf parser file (walkedSymbols parser platform file root) node = .site site) :
    site ∈ (parseTree parser platform file root).callSites := by
  obtain ⟨few, fewSites⟩ := within
  unfold walkedSymbols at *
  unfold parseTree
  dsimp only
  rw [if_neg (Nat.not_lt_of_le few), extractCallSites]
  split
  case h_1 stopped =>
    have beyond := collectCallSites_none stopped
    rw [List.nil_append] at beyond
    exact absurd fewSites (Nat.not_le_of_lt beyond)
  case h_2 result warnings collected =>
    have gathered := collectCallSites_some collected
    rw [List.nil_append] at gathered
    rw [mem_sortOn, gathered]
    exact mem_sitesOf.mpr ⟨node, member, view⟩

theorem siteOf_recorded {node : Node} (recorded : RecordedCall parser platform file root node) :
    ∃ site caller, siteOf parser file (walkedSymbols parser platform file root) node =
        .site site ∧
      callerAt (walkedSymbols parser platform file root) (node.info.startPoint.row + 1) =
        some caller ∧ site.callerQualifiedName = caller.qualifiedName := by
  obtain ⟨call, ⟨function, called, bounded⟩, covered⟩ := recorded
  cases found : callerAt (walkedSymbols parser platform file root)
      (node.info.startPoint.row + 1) with
  | none =>
      have length := congrArg List.length (List.head?_eq_none_iff.mp found)
      rw [sortOn_length] at length
      exact absurd (List.length_eq_zero_iff.mp length) covered
  | some caller => simp [siteOf, call, called, found, bounded]

theorem recorded_of_site {node : Node} {site : ParsedCallSite}
    (view : siteOf parser file (walkedSymbols parser platform file root) node = .site site) :
    RecordedCall parser platform file root node := by
  have facts := siteOf_site view
  obtain ⟨function, called, text⟩ := facts.function
  obtain ⟨caller, found, -⟩ := facts.caller
  refine ⟨facts.call, ⟨function, called, text ▸ facts.bounded⟩, ?_⟩
  obtain ⟨front, back, split, -⟩ := (callerAt_iff.mp found).split
  rw [split]
  simp

theorem mem_surroundedNodes {entry : Surroundings × Node}
    (member : entry ∈ surroundedNodes file root) : entry.2 ∈ visited [root] := by
  have nodes := surrounded_nodes file [(moduleLevel, root)]
  rw [List.map_singleton] at nodes
  rw [← nodes]
  exact List.mem_map_of_mem member

/-- The lines of a recorded call give a function. -/
theorem recorded_least {node : Node} (recorded : RecordedCall parser platform file root node) :
    ∃ function, FirstLeast spanKey
      (covering (walkedSymbols parser platform file root) (node.info.startPoint.row + 1))
        function := by
  obtain ⟨-, caller, -, found, -⟩ := siteOf_recorded recorded
  exact ⟨caller, callerAt_iff.mp found⟩

/-- Calls are attributed to the functions that run them exactly when the line of each
recorded call is its runner's own. -/
theorem calls_owned_iff (within : WithinLimits parser platform file root) :
    CallsOwned parser platform file root ↔
      ∀ entry ∈ surroundedNodes file root, RecordedCall parser platform file root entry.2 →
        OwnLine (walkedSymbols parser platform file root)
          (entry.2.info.startPoint.row + 1) entry.1 := by
  constructor
  · intro owned entry member recorded
    obtain ⟨site, caller, view, found, named⟩ := siteOf_recorded recorded
    have visit := (mem_surroundedNodes member)
    apply (ownLine_iff (callerAt_iff.mp found)).mp
    rw [← named]
    exact owned entry member site (mem_callSites_of_within within visit view) view
  · intro own entry member site _ view
    have recorded := recorded_of_site view
    obtain ⟨function, least⟩ := recorded_least recorded
    have runner := (ownLine_iff least).mpr (own entry member recorded)
    obtain ⟨caller, found, named⟩ := (siteOf_site view).caller
    rw [callerAt_iff.mpr least] at found
    cases found
    rw [named]
    exact runner

end Proofs

/-! ## A call in a default -/

namespace HeaderSamples

open ReceiverSamples

/-- A function whose default is a call. -/
def defaulted : ParsedSource where
  file := sourceFile "m.py" "def f(x=g()):\n pass\n".toList "commit"
  root := node "module" none (0, 20) ⟨0, 0⟩ ⟨2, 0⟩ [
    node "function_definition" none (0, 19) ⟨0, 0⟩ ⟨1, 5⟩ [
      node "identifier" (some "name") (4, 5) ⟨0, 4⟩ ⟨0, 5⟩ [],
      node "parameters" (some "parameters") (5, 12) ⟨0, 5⟩ ⟨0, 12⟩ [
        node "default_parameter" none (6, 11) ⟨0, 6⟩ ⟨0, 11⟩ [
          node "identifier" (some "name") (6, 7) ⟨0, 6⟩ ⟨0, 7⟩ [],
          node "call" (some "value") (8, 11) ⟨0, 8⟩ ⟨0, 11⟩ [
            node "identifier" (some "function") (8, 9) ⟨0, 8⟩ ⟨0, 9⟩ [],
            node "argument_list" (some "arguments") (9, 11) ⟨0, 9⟩ ⟨0, 11⟩ []]]],
      node "block" (some "body") (15, 19) ⟨1, 1⟩ ⟨1, 5⟩ []]]

/-- Some recorded call is attributed to a function that does not run it. -/
def strayOwner (source : ParsedSource) : Bool :=
  (surroundedNodes source.file source.root).any fun entry =>
    (viewedSite (siteOf limits.pythonParser source.file
      (walkedSymbols limits.pythonParser platform source.file source.root) entry.2)).any
        fun site =>
          decide (site ∈ (parseTree limits.pythonParser platform source.file
            source.root).callSites) && entry.1.runner != some site.callerQualifiedName

/-- The lines of every call give the function around it. -/
def ownersAgree (source : ParsedSource) : Bool :=
  (surroundedNodes source.file source.root).all fun entry =>
    entry.2.type != "call" ||
      (callerAt (walkedSymbols limits.pythonParser platform source.file source.root)
        (entry.2.info.startPoint.row + 1)).any fun caller =>
          entry.1.runner == some caller.qualifiedName

end HeaderSamples

open ReceiverSamples HeaderSamples in
/-- The call runs at the level of the module and is attributed to `f`. -/
theorem default_misattributed :
    WithinLimits limits.pythonParser platform defaulted.file defaulted.root ∧
      ¬ CallsOwned limits.pythonParser platform defaulted.file defaulted.root := by
  have stray : strayOwner defaulted = true := by decide +kernel
  refine ⟨⟨by decide +kernel, by decide +kernel⟩, fun owned => ?_⟩
  obtain ⟨entry, member, viewed⟩ := List.any_eq_true.mp stray
  obtain ⟨site, view, facts⟩ := (Option.any_eq_true _ _).mp viewed
  simp only [Bool.and_eq_true, decide_eq_true_eq, bne_iff_ne] at facts
  exact facts.2 (owned entry member site facts.1 (viewedSite_some view))

open ReceiverSamples ChainSamples HeaderSamples in
/-- Both calls of the chained one run in the function they are attributed to. -/
theorem chained_owned : CallsOwned limits.pythonParser platform chained.file chained.root := by
  have agree : ownersAgree chained = true := by decide +kernel
  apply (calls_owned_iff ⟨by decide +kernel, by decide +kernel⟩).mpr
  intro entry member recorded
  have checked := List.all_eq_true.mp agree entry member
  rw [Bool.or_eq_true] at checked
  have called := checked.resolve_left (by simp [recorded.1])
  obtain ⟨caller, found, runner⟩ := (Option.any_eq_true _ _).mp called
  exact (ownLine_iff (callerAt_iff.mp found)).mp (beq_iff_eq.mp runner)

end Codenaut.Indexing
