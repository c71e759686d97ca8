import Codenaut.Indexing.GraphEdges

/-!
# Looked-up names

Which names the resolver looks up for an expression, and which callee a
resolution with a given label reaches.
-/

set_option autoImplicit false

namespace Codenaut.Indexing

open Codenaut.Db Codenaut.Relational Codenaut.Text

/-! ## Forms of expressions -/

/-- What the resolver tells apart: a bare name, a member of `self` or `cls`, a
dotted name, and everything that it leaves unresolved. -/
inductive CallForm where
  | bare (name : String)
  | receiver (member : String)
  | dotted (head : String) (tail : List String)
  | other
  deriving DecidableEq, Repr

def callForm (unicode : UnicodeTables) (expression : String) : CallForm :=
  if isIdentifier unicode expression then .bare expression
  else
    match splitText '.' expression with
    | head :: next :: tail =>
        if (head :: next :: tail).all (isIdentifier unicode) then
          if head = "self" ∨ head = "cls" then .receiver (tail.getLastD next)
          else .dotted head (next :: tail)
        else .other
    | _ => .other

section Resolution

variable {unicode : UnicodeTables} {symbols : List SymbolRecord} {caller callee : SymbolRecord}
  {parsed : ParsedFile} {kind wanted : ResolutionType}

/-- The resolver by the form of the expression. -/
theorem resolve_form (expression : String) :
    resolve unicode symbols expression caller parsed =
      match callForm unicode expression with
      | .bare name => resolveIdentifier symbols caller parsed name
      | .receiver member =>
          exactOrAmbiguous (withQualifiedName symbols (receiverTarget caller member))
            .exactSameFile
      | .dotted head tail => resolveAttribute symbols caller parsed head tail
      | .other => unresolvedCall := by
  unfold resolve callForm
  by_cases identifier : isIdentifier unicode expression = true
  · rw [if_pos identifier, if_pos identifier]
  · rw [if_neg identifier, if_neg identifier]
    match splitText '.' expression with
    | [] => rfl
    | [_] => rfl
    | head :: next :: tail =>
        dsimp only
        by_cases identifiers : (head :: next :: tail).all (isIdentifier unicode) = true
        · rw [if_pos identifiers, if_pos identifiers]
          by_cases receiver : head = "self" ∨ head = "cls"
          · rw [if_pos receiver, resolveAttribute, if_pos receiver, List.getLastD_cons]
          · rw [if_neg receiver]
        · rw [if_neg identifiers, if_neg identifiers]

/-- A dotted form has its parts from the expression, and its head is no receiver. -/
theorem callForm_dotted {expression head : String} {tail : List String}
    (form : callForm unicode expression = .dotted head tail) :
    isIdentifier unicode expression = false ∧ tail ≠ [] ∧
      splitText '.' expression = head :: tail ∧ ¬ (head = "self" ∨ head = "cls") := by
  unfold callForm at form
  split at form
  · cases form
  case isFalse compound =>
    split at form
    case h_1 head next tail split =>
      split at form
      · split at form
        · cases form
        case isFalse receiver =>
          cases form
          exact ⟨by simpa using compound, by simp, split, receiver⟩
      · cases form
    case h_2 => cases form

theorem callForm_filled {expression head : String} {tail : List String}
    (form : callForm unicode expression = .dotted head tail) : ∀ part ∈ tail, part ≠ "" := by
  unfold callForm at form
  split at form
  · cases form
  · split at form
    case h_1 =>
      split at form
      case isTrue identifiers =>
        split at form
        · cases form
        · cases form
          rintro part listed rfl
          have identifier := List.all_eq_true.mp identifiers "" (.tail _ listed)
          cases identifier
      case isFalse => cases form
    case h_2 => cases form

/-! ## Names that symbols bear -/

def borne (symbols : List SymbolRecord) (name : String) : Bool :=
  withQualifiedName symbols name ≠ []

/-- The candidate whose symbols `_first_unique` returns. -/
def firstBorne (symbols : List SymbolRecord) (candidates : List String) : Option String :=
  candidates.find? (borne symbols)

theorem firstUnique_eq (candidates : List String) :
    firstUnique symbols candidates =
      (firstBorne symbols candidates).map (withQualifiedName symbols) := by
  induction candidates with
  | nil => rfl
  | cons candidate rest ih =>
      unfold firstUnique
      split
      case h_1 missing =>
        rw [ih, firstBorne, firstBorne, List.find?_cons_of_neg (by simp [borne, missing])]
      case h_2 found =>
        rw [firstBorne, List.find?_cons_of_pos (by simpa [borne] using found), Option.map_some]

end Resolution

/-! ## Scopes that a name spells out -/

/-- The inner name lies below the outer one. -/
def DottedBelow (outer inner : String) : Prop :=
  startsWith inner (outer ++ ".") = true

/-- A scope that a qualified name spells out: the name or one of its dotted
prefixes, down to the module. -/
structure ScopeOf (moduleName qualifiedName scope : String) : Prop where
  named : scope ≠ ""
  around : qualifiedName = scope ∨ DottedBelow scope qualifiedName
  inside : scope = moduleName ∨ DottedBelow moduleName scope

/-- A symbol of the name stands in the scope, and none in a longer one. -/
structure NearestScope (symbols : List SymbolRecord) (moduleName qualifiedName name scope : String) :
    Prop where
  spelled : ScopeOf moduleName qualifiedName scope
  defined : ∃ symbol ∈ symbols, symbol.qualifiedName = scope ++ "." ++ name
  nearest : ∀ inner, ScopeOf moduleName qualifiedName inner → scope.length < inner.length →
    ∀ symbol ∈ symbols, symbol.qualifiedName ≠ inner ++ "." ++ name

/-- No other symbol bears the qualified name. -/
def OnlyOf (symbols : List SymbolRecord) (name : String) (symbol : SymbolRecord) : Prop :=
  withQualifiedName symbols name = [symbol]

theorem onlyOf_iff_one {symbols : List SymbolRecord} {name : String} {symbol : SymbolRecord} :
    OnlyOf symbols name symbol ↔ one (withQualifiedName symbols name) = some symbol := by
  constructor
  · intro only
    rw [OnlyOf] at only
    rw [only]
    rfl
  · exact one_mem

theorem dottedBelow_iff {outer inner : String} :
    DottedBelow outer inner ↔ ∃ rest, inner.toList = outer.toList ++ '.' :: rest := by
  rw [DottedBelow, startsWith, List.isPrefixOf_iff_prefix, String.toList_append]
  constructor
  · rintro ⟨rest, whole⟩
    exact ⟨rest, by rw [← whole, List.append_assoc]; rfl⟩
  · rintro ⟨rest, whole⟩
    exact ⟨rest, by rw [whole, List.append_assoc]; rfl⟩

theorem DottedBelow.length_lt {outer inner : String} (below : DottedBelow outer inner) :
    outer.length < inner.length := by
  obtain ⟨rest, whole⟩ := dottedBelow_iff.mp below
  rw [← String.length_toList, ← String.length_toList, whole, List.length_append, List.length_cons]
  omega

theorem DottedBelow.trans {outer middle inner : String} (first : DottedBelow outer middle)
    (second : DottedBelow middle inner) : DottedBelow outer inner := by
  obtain ⟨between, whole⟩ := dottedBelow_iff.mp first
  obtain ⟨rest, deeper⟩ := dottedBelow_iff.mp second
  refine dottedBelow_iff.mpr ⟨between ++ '.' :: rest, ?_⟩
  rw [deeper, whole, List.append_assoc, List.cons_append]

/-- What a name lies below is its front, or its front lies below it. -/
theorem dottedBelow_cut {outer front inner : String} {last : List Char} (free : '.' ∉ last)
    (cut : inner.toList = front.toList ++ '.' :: last) :
    DottedBelow outer inner ↔ front = outer ∨ DottedBelow outer front := by
  rw [dottedBelow_iff, dottedBelow_iff, cut]
  constructor
  · rintro ⟨rest, whole⟩
    rcases List.append_eq_append_iff.mp whole with ⟨more, longer, tail⟩ | ⟨more, longer, tail⟩
    · cases more with
      | nil =>
          rw [List.append_nil] at longer
          exact .inl (String.toList_inj.mp longer.symm)
      | cons dot more =>
          obtain ⟨-, inside⟩ := List.cons.inj tail
          exact absurd (inside ▸ List.mem_append_right more (.head _)) free
    · cases more with
      | nil =>
          rw [List.append_nil] at longer
          exact .inl (String.toList_inj.mp longer)
      | cons dot more =>
          obtain ⟨rfl, -⟩ := List.cons.inj tail
          exact .inr ⟨more, longer⟩
  · rintro (rfl | ⟨rest, whole⟩)
    · exact ⟨last, rfl⟩
    · exact ⟨rest ++ '.' :: last, by rw [whole, List.append_assoc, List.cons_append]⟩

/-- A name below another has a last component. -/
theorem DottedBelow.cut {outer inner : String} (below : DottedBelow outer inner) :
    ∃ last, '.' ∉ last ∧
      inner.toList = (rpartitionHead '.' inner).toList ++ '.' :: last := by
  obtain ⟨rest, whole⟩ := dottedBelow_iff.mp below
  have dotted : '.' ∈ inner.toList.reverse := by simp [whole]
  obtain ⟨last, front, split, free⟩ := List.eq_append_cons_of_mem dotted
  have reversed : inner.toList = front.reverse ++ '.' :: last.reverse := by
    rw [← List.reverse_reverse inner.toList, split]
    simp
  have plain : '.' ∉ (String.ofList last.reverse).toList := by simpa using free
  have text : inner =
      String.ofList front.reverse ++ String.singleton '.' ++ String.ofList last.reverse := by
    rw [← String.toList_inj]
    simp [reversed]
  have head : rpartitionHead '.' inner = String.ofList front.reverse := by
    rw [text]
    exact rpartitionHead_append plain
  exact ⟨last.reverse, by simpa using free, by rw [head, String.toList_ofList, reversed]⟩

section Scopes

variable {symbols : List SymbolRecord} {moduleName qualifiedName name scope : String}

/-- The scopes of a name below the module are the name and those of its front. -/
theorem scopeOf_step (below : DottedBelow moduleName qualifiedName) :
    ScopeOf moduleName qualifiedName scope ↔ scope = qualifiedName ∨
      ScopeOf moduleName (rpartitionHead '.' qualifiedName) scope := by
  obtain ⟨last, free, cut⟩ := below.cut
  constructor
  · rintro ⟨named, around, inside⟩
    rcases around with same | within
    · exact .inl same.symm
    · exact .inr ⟨named, (dottedBelow_cut free cut).mp within, inside⟩
  · rintro (rfl | ⟨named, around, inside⟩)
    · refine ⟨?_, .inl rfl, .inr below⟩
      rintro rfl
      simp at cut
    · exact ⟨named, .inr ((dottedBelow_cut free cut).mpr around), inside⟩

theorem ScopeOf.length_le (spells : ScopeOf moduleName qualifiedName scope) :
    scope.length ≤ qualifiedName.length := by
  rcases spells.around with rfl | below
  · exact Nat.le_refl _
  · exact Nat.le_of_lt below.length_lt

/-- The module is its only scope. -/
theorem scopeOf_module (spells : ScopeOf moduleName moduleName scope) : scope = moduleName := by
  rcases spells.inside with same | below
  · exact same
  · exact absurd spells.length_le (Nat.not_le_of_lt below.length_lt)

/-- A name has scopes when it is the module's or lies below it. -/
theorem ScopeOf.guard (spells : ScopeOf moduleName qualifiedName scope) :
    qualifiedName ≠ "" ∧ (qualifiedName = moduleName ∨ DottedBelow moduleName qualifiedName) := by
  obtain ⟨named, around, inside⟩ := spells
  have filled : 0 < scope.length := by
    rw [Nat.pos_iff_ne_zero, ← String.length_toList, Ne, List.length_eq_zero_iff]
    exact mt String.toList_eq_nil_iff.mp named
  rcases around with rfl | below
  · exact ⟨named, inside⟩
  · refine ⟨?_, .inr ?_⟩
    · rintro rfl
      exact absurd below.length_lt (Nat.not_lt_zero _)
    · rcases inside with rfl | deeper
      · exact below
      · exact deeper.trans below

theorem borne_iff : borne symbols name = true ↔
    ∃ symbol ∈ symbols, symbol.qualifiedName = name := by
  simp [borne, withQualifiedName]

/-- A name that the innermost scope itself has is nearest there. -/
theorem nearestScope_here (own : ScopeOf moduleName qualifiedName qualifiedName)
    (here : ∃ symbol ∈ symbols, symbol.qualifiedName = qualifiedName ++ "." ++ name) :
    NearestScope symbols moduleName qualifiedName name scope ↔ scope = qualifiedName := by
  constructor
  · intro near
    obtain ⟨symbol, member, bears⟩ := here
    rcases near.spelled.around with rfl | below
    · rfl
    · exact absurd bears (near.nearest qualifiedName own below.length_lt symbol member)
  · rintro rfl
    exact ⟨own, here, fun inner spells longer =>
      absurd spells.length_le (Nat.not_le_of_lt longer)⟩

/-- A name that the innermost scope does not have is looked up around it. -/
theorem nearestScope_step (below : DottedBelow moduleName qualifiedName)
    (elsewhere : ∀ symbol ∈ symbols, symbol.qualifiedName ≠ qualifiedName ++ "." ++ name) :
    NearestScope symbols moduleName (rpartitionHead '.' qualifiedName) name scope ↔
      NearestScope symbols moduleName qualifiedName name scope := by
  constructor
  · intro near
    refine ⟨(scopeOf_step below).mpr (.inr near.spelled), near.defined, ?_⟩
    intro inner spells longer
    rcases (scopeOf_step below).mp spells with rfl | further
    · exact elsewhere
    · exact near.nearest inner further longer
  · intro near
    refine ⟨?_, near.defined, fun inner spells =>
      near.nearest inner ((scopeOf_step below).mpr (.inr spells))⟩
    rcases (scopeOf_step below).mp near.spelled with rfl | further
    · obtain ⟨symbol, member, bears⟩ := near.defined
      exact absurd bears (elsewhere symbol member)
    · exact further

/-- The loop finds the name in the longest scope that defines it. -/
theorem firstBorne_scopes {turns : Nat} {parent found : String} (room : parent.length < turns) :
    firstBorne symbols (localCandidatesFrom moduleName name turns parent) = some found ↔
      ∃ scope, NearestScope symbols moduleName parent name scope ∧
        scope ++ "." ++ name = found := by
  induction turns generalizing parent with
  | zero => exact absurd room (Nat.not_lt_zero _)
  | succ turns ih =>
      rw [localCandidatesFrom]
      by_cases guard : parent ≠ "" ∧
          (parent = moduleName ∨ startsWith parent (moduleName ++ ".") = true)
      case neg =>
        rw [if_neg guard]
        exact iff_of_false (Option.some_ne_none found).symm (not_exists.mpr fun scope near =>
          guard near.1.spelled.guard)
      case pos =>
        rw [if_pos guard]
        have own : ScopeOf moduleName parent parent := ⟨guard.1, .inl rfl, guard.2⟩
        by_cases here : borne symbols (parent ++ "." ++ name) = true
        · rw [firstBorne, List.find?_cons_of_pos here]
          simp only [nearestScope_here own (borne_iff.mp here), exists_eq_left, Option.some.injEq]
        · rw [firstBorne, List.find?_cons_of_neg here]
          have elsewhere : ∀ symbol ∈ symbols, symbol.qualifiedName ≠ parent ++ "." ++ name :=
            fun symbol member bears => here (borne_iff.mpr ⟨symbol, member, bears⟩)
          by_cases whole : parent = moduleName
          · rw [if_pos whole]
            refine iff_of_false (Option.some_ne_none found).symm (not_exists.mpr fun scope near => ?_)
            obtain ⟨symbol, member, bears⟩ := near.1.defined
            have same : scope = moduleName := scopeOf_module (whole ▸ near.1.spelled)
            rw [same, ← whole] at bears
            exact elsewhere symbol member bears
          · rw [if_neg whole]
            have below : DottedBelow moduleName parent := guard.2.resolve_left whole
            obtain ⟨last, -, cut⟩ := below.cut
            have shorter : (rpartitionHead '.' parent).length < parent.length := by
              rw [← String.length_toList, ← String.length_toList, cut, List.length_append,
                List.length_cons]
              omega
            exact (ih (by omega)).trans (exists_congr fun scope =>
              and_congr_left fun _ => nearestScope_step below elsewhere)

end Scopes

/-! ## The imports of a file -/

/-- A name that an import binds, and the parts of the dotted name it stands for.
A plain import binds a module, one with `from` what the module defines. -/
structure ImportBinding where
  name : String
  path : List String
  ofModule : Bool
  deriving DecidableEq, Repr

def plainBinding (imported : ImportAlias) : ImportBinding :=
  match imported.aliasName.filter (· ≠ "") with
  | some aliasName => ⟨aliasName, [imported.name], true⟩
  | none => ⟨(splitText '.' imported.name).headD "", [(splitText '.' imported.name).headD ""], true⟩

def fromBinding (module : String) (imported : ImportAlias) : ImportBinding :=
  ⟨(imported.aliasName.filter (· ≠ "")).getD imported.name,
    [module, imported.name].filter (· ≠ ""), false⟩

/-- The bindings of the file in the order of its imports, wildcards aside. -/
def importBindings (parsed : ParsedFile) : List ImportBinding :=
  parsed.imports.flatMap fun item =>
    if item.isPlain then item.names.map plainBinding
    else (item.names.filter (·.name ≠ "*")).map (fromBinding (absoluteModule parsed item))

/-- The dotted names that a name with the parts after it stands for. -/
def namesThrough (bindings : List ImportBinding) (head : String) (tail : List String) :
    List String :=
  (bindings.filter (·.name = head)).map fun binding => joinText '.' (binding.path ++ tail)

/-- Some symbol bears the name, and none bears one of those before it. -/
structure FirstLed (symbols : List SymbolRecord) (names : List String) (name : String) : Prop where
  split : ∃ front back, names = front ++ name :: back ∧
    ∀ earlier ∈ front, ∀ symbol ∈ symbols, symbol.qualifiedName ≠ earlier
  defined : ∃ symbol ∈ symbols, symbol.qualifiedName = name

/-- No symbol of the repository has one of the dotted names. -/
def LedNowhere (symbols : List SymbolRecord) (names : List String) : Prop :=
  ∀ name ∈ names, ∀ symbol ∈ symbols, symbol.qualifiedName ≠ name

section Imports

variable {symbols : List SymbolRecord} {parsed : ParsedFile} {names : List String}

theorem firstBorne_iff {name : String} :
    firstBorne symbols names = some name ↔ FirstLed symbols names name := by
  rw [firstBorne, List.find?_eq_some_iff_append]
  simp only [Bool.not_eq_true', ← Bool.not_eq_true, borne_iff]
  constructor
  · rintro ⟨defined, front, back, split, missing⟩
    exact ⟨⟨front, back, split, fun earlier listed symbol member bears =>
      missing earlier listed ⟨symbol, member, bears⟩⟩, defined⟩
  · rintro ⟨⟨front, back, split, missing⟩, defined⟩
    refine ⟨defined, front, back, split, ?_⟩
    rintro earlier listed ⟨symbol, member, bears⟩
    exact missing earlier listed symbol member bears

theorem firstBorne_none : firstBorne symbols names = none ↔ LedNowhere symbols names := by
  rw [firstBorne, List.find?_eq_none, LedNowhere]
  simp only [borne_iff, not_exists, not_and, Ne]

theorem FirstLed.unique {name other : String} (first : FirstLed symbols names name)
    (otherFirst : FirstLed symbols names other) : other = name :=
  Option.some.inj ((firstBorne_iff.mpr otherFirst).symm.trans (firstBorne_iff.mpr first))

theorem OnlyOf.led {name : String} {symbol : SymbolRecord} (only : OnlyOf symbols name symbol) :
    ¬ LedNowhere symbols [name] := by
  intro nowhere
  have listed := List.mem_filter.mp (only ▸ List.mem_singleton_self symbol)
  exact nowhere name (List.mem_singleton_self name) symbol listed.1 (of_decide_eq_true listed.2)

theorem LedNowhere.unled (nowhere : LedNowhere symbols names) (name : String) :
    ¬ FirstLed symbols names name := by
  intro first
  rw [← firstBorne_iff, firstBorne_none.mpr nowhere] at first
  cases first

theorem namesThrough_flatMap {α : Type} (items : List α) (bindings : α → List ImportBinding)
    (head : String) (tail : List String) :
    namesThrough (items.flatMap bindings) head tail =
      items.flatMap fun item => namesThrough (bindings item) head tail := by
  rw [namesThrough, List.filter_flatMap, List.map_flatMap]
  rfl

theorem namesThrough_cons (binding : ImportBinding) (bindings : List ImportBinding) (head : String)
    (tail : List String) :
    namesThrough (binding :: bindings) head tail =
      (if binding.name = head then [joinText '.' (binding.path ++ tail)] else []) ++
        namesThrough bindings head tail := by
  rw [namesThrough, List.filter_cons]
  by_cases bound : binding.name = head
  · simp [bound, namesThrough]
  · simp [bound, namesThrough]

theorem namesThrough_from (module head : String) (names : List ImportAlias)
    {tail : List String} (filled : ∀ part ∈ tail, part ≠ "") :
    namesThrough ((names.filter (·.name ≠ "*")).map (fromBinding module)) head tail =
      (names.filter (·.binds head)).map fun imported =>
        dottedName (module :: imported.name :: tail) := by
  have kept : tail.filter (· ≠ "") = tail := by
    rw [List.filter_eq_self]
    simpa using filled
  induction names with
  | nil => rfl
  | cons imported rest ih =>
      rw [List.filter_cons, List.filter_cons]
      by_cases wild : imported.name = "*"
      · simpa [wild, ImportAlias.binds] using ih
      · rw [if_pos (by simpa using wild), List.map_cons, namesThrough_cons, ih]
        have binds : imported.binds head = true ↔ (fromBinding module imported).name = head := by
          simp [ImportAlias.binds, wild, fromBinding]
        by_cases bound : (fromBinding module imported).name = head
        · have path : (fromBinding module imported).path ++ tail =
              (module :: imported.name :: tail).filter (· ≠ "") := by
            have whole : module :: imported.name :: tail = [module, imported.name] ++ tail := rfl
            rw [whole, List.filter_append, kept, fromBinding]
          rw [if_pos bound, if_pos (binds.mpr bound), List.map_cons, path]
          rfl
        · rw [if_neg bound, if_neg (mt binds.mp bound), List.nil_append]

theorem namesThrough_plain (head : String) (names : List ImportAlias) (tail : List String) :
    namesThrough (names.map plainBinding) head tail = names.filterMap fun imported =>
      let aliasName := imported.aliasName.filter (· ≠ "")
      let binding := aliasName.getD ((splitText '.' imported.name).headD "")
      if binding = head then
        some (joinText '.' ((if aliasName.isSome then imported.name else head) :: tail))
      else none := by
  induction names with
  | nil => rfl
  | cons imported rest ih =>
      rw [List.filterMap_cons, ← ih, List.map_cons, namesThrough_cons, plainBinding]
      cases imported.aliasName.filter (· ≠ "") with
      | some aliasName =>
          by_cases bound : aliasName = head
          · simp [bound]
          · simp [bound]
      | none =>
          dsimp only [Option.getD_none]
          by_cases bound : (splitText '.' imported.name).headD "" = head
          · rw [if_pos bound, if_pos bound, bound]
            rfl
          · rw [if_neg bound, if_neg bound]
            rfl

theorem qualifiedImportCandidates_eq {head : String} {tail : List String}
    (filled : ∀ part ∈ tail, part ≠ "") :
    qualifiedImportCandidates parsed head tail =
      namesThrough (importBindings parsed) head tail := by
  rw [importBindings, namesThrough_flatMap, qualifiedImportCandidates]
  refine List.flatMap_congr fun item _ => ?_
  split
  · rw [namesThrough_plain]
  · rw [namesThrough_from _ _ _ filled]

theorem directImportCandidates_eq (target : String) :
    directImportCandidates parsed target =
      namesThrough ((importBindings parsed).filter (!·.ofModule)) target [] := by
  rw [importBindings, List.filter_flatMap, namesThrough_flatMap, directImportCandidates]
  refine List.flatMap_congr fun item _ => ?_
  split
  · have modules : (item.names.map plainBinding).filter (!·.ofModule) = [] := by
      rw [List.filter_eq_nil_iff]
      intro binding member
      obtain ⟨imported, -, rfl⟩ := List.mem_map.mp member
      unfold plainBinding
      split <;> simp
    rw [modules]
    rfl
  · have parts : ((item.names.filter (·.name ≠ "*")).map
        (fromBinding (absoluteModule parsed item))).filter (!·.ofModule) =
          (item.names.filter (·.name ≠ "*")).map (fromBinding (absoluteModule parsed item)) := by
      rw [List.filter_eq_self]
      intro binding member
      obtain ⟨imported, -, rfl⟩ := List.mem_map.mp member
      rfl
    rw [parts, namesThrough_from _ _ _ (by simp)]

end Imports

section Callees

variable {unicode : UnicodeTables} {symbols : List SymbolRecord} {caller callee : SymbolRecord}
  {parsed : ParsedFile} {kind wanted : ResolutionType}

/-! ## Reached callees -/

/-- The resolution has the label and leads to the callee. -/
structure Reaches (resolution : Resolution) (kind : ResolutionType) (callee : SymbolRecord) :
    Prop where
  kind : resolution.kind = kind
  callee : resolution.callee = some callee

theorem reaches_exactOrAmbiguous {found : List SymbolRecord} :
    Reaches (exactOrAmbiguous found kind) wanted callee ↔ kind = wanted ∧ found = [callee] := by
  unfold exactOrAmbiguous
  constructor
  · rintro ⟨label, reached⟩
    split at reached
    case h_1 symbol =>
      cases reached
      exact ⟨label, rfl⟩
    · cases reached
    · cases reached
  · rintro ⟨rfl, rfl⟩
    exact ⟨rfl, rfl⟩

theorem not_reaches_unresolved : ¬ Reaches unresolvedCall wanted callee := by
  rintro ⟨-, reached⟩
  cases reached

/-- The local name of a bare identifier, when one of them is borne. -/
def localName (symbols : List SymbolRecord) (caller : SymbolRecord) (parsed : ParsedFile)
    (name : String) : Option String :=
  firstBorne symbols (localCandidates caller parsed.moduleName name)

/-- The local name is the one in the nearest scope. -/
theorem localName_some {name found : String} :
    localName symbols caller parsed name = some found ↔
      ∃ scope, NearestScope symbols parsed.moduleName caller.qualifiedName name scope ∧
        scope ++ "." ++ name = found :=
  firstBorne_scopes (Nat.lt_succ_self _)

theorem localName_none {name : String} :
    localName symbols caller parsed name = none ↔
      ∀ scope, ¬ NearestScope symbols parsed.moduleName caller.qualifiedName name scope := by
  rw [Option.eq_none_iff_forall_not_mem]
  constructor
  · intro missing scope near
    exact missing _ (localName_some.mpr ⟨scope, near, rfl⟩)
  · intro missing found bears
    obtain ⟨scope, near, -⟩ := localName_some.mp bears
    exact missing scope near

theorem NearestScope.unique {name scope other : String}
    (near : NearestScope symbols parsed.moduleName caller.qualifiedName name scope)
    (otherNear : NearestScope symbols parsed.moduleName caller.qualifiedName name other) :
    other = scope := by
  have found : localName symbols caller parsed name = some (scope ++ "." ++ name) :=
    localName_some.mpr ⟨scope, near, rfl⟩
  have otherFound : localName symbols caller parsed name = some (other ++ "." ++ name) :=
    localName_some.mpr ⟨other, otherNear, rfl⟩
  have same := Option.some.inj (otherFound.symm.trans found)
  rwa [String.append_left_inj, String.append_left_inj] at same

/-! ## What the resolver looks up -/

/-- A bare name: in the nearest scope that has it, or by the first import that leads
to a symbol. -/
inductive BareLookup (symbols : List SymbolRecord) (caller : SymbolRecord) (parsed : ParsedFile)
    (name : String) : Resolution → Prop where
  | near {scope : String} :
      NearestScope symbols parsed.moduleName caller.qualifiedName name scope →
      BareLookup symbols caller parsed name
        (exactOrAmbiguous (withQualifiedName symbols (scope ++ "." ++ name)) .exactSameFile)
  | imported {path : String} :
      (∀ scope, ¬ NearestScope symbols parsed.moduleName caller.qualifiedName name scope) →
      FirstLed symbols (namesThrough ((importBindings parsed).filter (!·.ofModule)) name []) path →
      BareLookup symbols caller parsed name
        (exactOrAmbiguous (withQualifiedName symbols path) .exactDirectImport)
  | unknown :
      (∀ scope, ¬ NearestScope symbols parsed.moduleName caller.qualifiedName name scope) →
      LedNowhere symbols (namesThrough ((importBindings parsed).filter (!·.ofModule)) name []) →
      BareLookup symbols caller parsed name unresolvedCall

theorem resolveIdentifier_lookup (name : String) :
    BareLookup symbols caller parsed name (resolveIdentifier symbols caller parsed name) := by
  unfold resolveIdentifier
  rw [firstUnique_eq, firstUnique_eq, directImportCandidates_eq, ← localName]
  cases near : localName symbols caller parsed name with
  | some found =>
      obtain ⟨scope, nearest, rfl⟩ := localName_some.mp near
      exact .near nearest
  | none =>
      have unscoped := localName_none.mp near
      cases led : firstBorne symbols
          (namesThrough ((importBindings parsed).filter (!·.ofModule)) name []) with
      | some path => exact .imported unscoped (firstBorne_iff.mp led)
      | none => exact .unknown unscoped (firstBorne_none.mp led)

/-- What `_resolve_attribute` looks up in the module itself. -/
def moduleTarget (parsed : ParsedFile) (head : String) (tail : List String) : String :=
  parsed.moduleName ++ "." ++ joinText '.' (head :: tail)

/-- A dotted name: by the first import that leads to a symbol, below the module, or
by the methods of its last name. -/
inductive DottedLookup (symbols : List SymbolRecord) (parsed : ParsedFile) (head : String)
    (tail : List String) : Resolution → Prop where
  | through {path : String} :
      FirstLed symbols (namesThrough (importBindings parsed) head tail) path →
      DottedLookup symbols parsed head tail
        (exactOrAmbiguous (withQualifiedName symbols path) .qualifiedModule)
  | below : LedNowhere symbols (namesThrough (importBindings parsed) head tail) →
      ¬ LedNowhere symbols [moduleTarget parsed head tail] →
      DottedLookup symbols parsed head tail
        (exactOrAmbiguous (withQualifiedName symbols (moduleTarget parsed head tail))
          .exactSameFile)
  | method {symbol : SymbolRecord} :
      LedNowhere symbols (namesThrough (importBindings parsed) head tail) →
      LedNowhere symbols [moduleTarget parsed head tail] →
      methodsNamed symbols (tail.getLastD head) = [symbol] →
      DottedLookup symbols parsed head tail ⟨some symbol, .probableMethod, .medium⟩
  | methods : LedNowhere symbols (namesThrough (importBindings parsed) head tail) →
      LedNowhere symbols [moduleTarget parsed head tail] →
      (∀ symbol, methodsNamed symbols (tail.getLastD head) ≠ [symbol]) →
      DottedLookup symbols parsed head tail ⟨none, .ambiguous, .low⟩
  | unknown : LedNowhere symbols (namesThrough (importBindings parsed) head tail) →
      LedNowhere symbols [moduleTarget parsed head tail] →
      methodsNamed symbols (tail.getLastD head) = [] →
      DottedLookup symbols parsed head tail unresolvedCall

theorem resolveAttribute_lookup {head : String} {tail : List String}
    (plain : ¬ (head = "self" ∨ head = "cls")) (filled : ∀ part ∈ tail, part ≠ "") :
    DottedLookup symbols parsed head tail
      (resolveAttribute symbols caller parsed head tail) := by
  have named : LedNowhere symbols [moduleTarget parsed head tail] ↔
      withQualifiedName symbols (moduleTarget parsed head tail) = [] := by
    simp [LedNowhere, withQualifiedName, List.filter_eq_nil_iff]
  simp only [resolveAttribute]
  rw [if_neg plain, firstUnique_eq, qualifiedImportCandidates_eq filled, ← moduleTarget]
  cases led : firstBorne symbols (namesThrough (importBindings parsed) head tail) with
  | some path => exact .through (firstBorne_iff.mp led)
  | none =>
      have nowhere := firstBorne_none.mp led
      rw [Option.map_none]
      dsimp only
      split
      case h_1 missing =>
        have absent := named.mpr missing
        split
        case h_1 without => exact .unknown nowhere absent without
        case h_2 symbol lone => exact .method nowhere absent lone
        case h_3 _ several => exact .methods nowhere absent several
      case h_2 found => exact .below nowhere (mt named.mp found)

theorem reaches_identifier {name : String} :
    Reaches (resolveIdentifier symbols caller parsed name) .exactSameFile callee ↔
      ∃ scope, NearestScope symbols parsed.moduleName caller.qualifiedName name scope ∧
        OnlyOf symbols (scope ++ "." ++ name) callee := by
  have looked := @resolveIdentifier_lookup symbols caller parsed name
  generalize resolveIdentifier symbols caller parsed name = resolution at looked ⊢
  cases looked with
  | @near scope nearest =>
      rw [reaches_exactOrAmbiguous, and_iff_right rfl]
      constructor
      · exact fun only => ⟨scope, nearest, only⟩
      · intro ⟨other, otherNearest, only⟩
        exact nearest.unique otherNearest ▸ only
  | imported unscoped _ =>
      rw [reaches_exactOrAmbiguous]
      exact iff_of_false (fun labelled => nomatch labelled.1)
        (not_exists.mpr fun scope nearest => unscoped scope nearest.1)
  | unknown unscoped _ =>
      exact iff_of_false not_reaches_unresolved
        (not_exists.mpr fun scope nearest => unscoped scope nearest.1)

theorem reaches_attribute {head : String} {tail : List String}
    (plain : ¬ (head = "self" ∨ head = "cls")) (filled : ∀ part ∈ tail, part ≠ "") :
    Reaches (resolveAttribute symbols caller parsed head tail) .exactSameFile callee ↔
      LedNowhere symbols (namesThrough (importBindings parsed) head tail) ∧
        OnlyOf symbols (moduleTarget parsed head tail) callee := by
  have looked := @resolveAttribute_lookup symbols caller parsed head tail plain filled
  generalize resolveAttribute symbols caller parsed head tail = resolution at looked ⊢
  cases looked with
  | through first =>
      rw [reaches_exactOrAmbiguous]
      exact iff_of_false (fun labelled => nomatch labelled.1) fun below => below.1.unled _ first
  | below nowhere _ =>
      rw [reaches_exactOrAmbiguous, and_iff_right rfl, and_iff_right nowhere, OnlyOf]
  | method _ absent _ =>
      exact iff_of_false (fun labelled => nomatch labelled.1) fun below => below.2.led absent
  | methods _ absent _ =>
      exact iff_of_false (fun labelled => nomatch labelled.1) fun below => below.2.led absent
  | unknown _ absent _ =>
      exact iff_of_false not_reaches_unresolved fun below => below.2.led absent

end Callees

end Codenaut.Indexing
