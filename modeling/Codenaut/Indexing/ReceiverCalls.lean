import Codenaut.Indexing.Analyzer
import Codenaut.Indexing.DefinitionScopes
import Codenaut.Indexing.NameLookup
import Codenaut.Text.Python

/-!
# Calls on `self` and `cls`

The builder looks a receiver call up under the caller's qualified name with its
last component replaced. An exact edge drawn that way leads to a member of the
caller's own class, unless one definition alone has that name beside a caller
that is no method, of a longer call, or outside the class of the calling method.
-/

set_option autoImplicit false

namespace Codenaut.Indexing

open Codenaut.Db Codenaut.Relational Codenaut.Text

/-! ## Parsed sources -/

/-- A file and the tree of its normalized text. -/
structure ParsedSource where
  file : SourceFile
  root : Node

def ParsedSource.parsed (source : ParsedSource) (parser : PythonStaticParser)
    (platform : Platform) : ParsedFile :=
  parseTree parser platform source.file source.root

def ParsedSource.scopes (source : ParsedSource) (parser : PythonStaticParser)
    (platform : Platform) : List ScopedDefinition :=
  definitionScopes parser platform source.file source.root

/-- The definitions of a source that have a record. -/
def ParsedSource.recorded (source : ParsedSource) (limits : ParserLimits) (platform : Platform) :
    List ScopedDefinition :=
  let scopes := source.scopes limits.pythonParser platform
  if scopes.length > limits.maxSymbolsPerFile then []
  else scopes.filter (·.symbol.sourceText.utf8ByteSize ≤ limits.maxSymbolBytes)

/-- The files and records that the graph of the sources is built from. -/
def parsedFilesOf (limits : ParserLimits) (platform : Platform) (sources : List ParsedSource) :
    List ParsedFile :=
  sources.map (·.parsed limits.pythonParser platform)

def recordsOf (limits : ParserLimits) (platform : Platform) (sources : List ParsedSource) :
    List SymbolRecord :=
  symbolRecords limits (parsedFilesOf limits platform sources)

def callSitesOf (limits : ParserLimits) (platform : Platform) (sources : List ParsedSource) :
    List ParsedCallSite :=
  (parsedFilesOf limits platform sources).flatMap (·.callSites)

section Records

variable {limits : ParserLimits} {platform : Platform} {sources : List ParsedSource}

theorem mem_fileRecords {source : ParsedSource} {record : SymbolRecord} :
    record ∈ fileRecords limits (source.parsed limits.pythonParser platform) ↔
      ∃ definition ∈ source.recorded limits platform, symbolRecord definition.symbol = record := by
  have symbols := @walkScopes_symbols limits.pythonParser platform source.file [] []
    source.root.namedChildren
  have length : (walkDefinitions limits.pythonParser platform source.file [] []
      source.root.namedChildren).length = (source.scopes limits.pythonParser platform).length := by
    have lengths := congrArg List.length symbols
    rw [List.length_map] at lengths
    exact lengths.symm
  simp only [fileRecords, ParsedSource.parsed, parseTree, length, ParsedSource.recorded]
  have limit : limits.pythonParser.maxSymbols = limits.maxSymbolsPerFile := rfl
  rw [limit]
  split
  · simp [skippedFile]
  · have member : ∀ symbol, symbol ∈ walkDefinitions limits.pythonParser platform source.file [] []
        source.root.namedChildren ↔
          ∃ definition ∈ source.scopes limits.pythonParser platform,
            definition.symbol = symbol := by
      intro symbol
      rw [← List.mem_map]
      exact iff_of_eq (congrArg (symbol ∈ ·) symbols.symm)
    simp only [List.mem_map, List.mem_filter, mem_sortOn, member]
    constructor
    · rintro ⟨symbol, ⟨⟨definition, inside, rfl⟩, small⟩, rfl⟩
      exact ⟨definition, ⟨inside, small⟩, rfl⟩
    · rintro ⟨definition, ⟨inside, small⟩, rfl⟩
      exact ⟨definition.symbol, ⟨⟨definition, inside, rfl⟩, small⟩, rfl⟩

theorem mem_recordsOf {record : SymbolRecord} :
    record ∈ recordsOf limits platform sources ↔
      ∃ source ∈ sources, ∃ definition ∈ source.recorded limits platform,
        symbolRecord definition.symbol = record := by
  simp only [recordsOf, symbolRecords, mem_sortOn, List.mem_flatMap, parsedFilesOf, List.mem_map]
  constructor
  · rintro ⟨_, ⟨source, member, rfl⟩, inside⟩
    exact ⟨source, member, mem_fileRecords.mp inside⟩
  · rintro ⟨source, member, inside⟩
    exact ⟨_, ⟨source, member, rfl⟩, mem_fileRecords.mpr inside⟩

theorem recorded_mem {source : ParsedSource} {definition : ScopedDefinition}
    (member : definition ∈ source.recorded limits platform) :
    definition ∈ source.scopes limits.pythonParser platform := by
  unfold ParsedSource.recorded at member
  dsimp only at member
  split at member
  · cases member
  · exact (List.mem_filter.mp member).1

end Records

/-! ## Edges and their calls -/

section Edges

variable {platform : Platform} {unicode : UnicodeTables} {scope : GraphScope}
  {parsedFiles : List ParsedFile} {symbols : List SymbolRecord}

/-- The builder draws an edge for the site, from this caller with this
resolution. -/
def Draws (unicode : UnicodeTables) (parsedFiles : List ParsedFile) (symbols : List SymbolRecord)
    (site : ParsedCallSite) (caller : SymbolRecord) (resolution : Resolution) : Prop :=
  one (withQualifiedName symbols site.callerQualifiedName) = some caller ∧
    ∃ parsed, fileAt parsedFiles site.filePath = some parsed ∧
      resolution = resolve unicode symbols site.expression caller parsed

theorem tallySite_edges (tally : GraphTally) (site : ParsedCallSite) (edge : CallEdgeRecord) :
    edge ∈ (tallySite platform unicode scope parsedFiles symbols tally site).edges ↔
      edge ∈ tally.edges ∨ ∃ caller resolution,
        Draws unicode parsedFiles symbols site caller resolution ∧
          edge = edgeRecord platform scope site caller resolution := by
  unfold tallySite Draws
  split
  case h_1 caller parsed found located =>
    simp only [List.mem_append, List.mem_singleton, found, located, Option.some.injEq]
    constructor
    · rintro (earlier | added)
      · exact .inl earlier
      · exact .inr ⟨caller, _, ⟨rfl, parsed, rfl, rfl⟩, added⟩
    · rintro (earlier | ⟨_, _, ⟨rfl, _, rfl, rfl⟩, added⟩)
      · exact .inl earlier
      · exact .inr added
  case h_2 missing =>
    constructor
    · exact .inl
    · rintro (earlier | ⟨caller, _, ⟨found, parsed, located, _⟩, _⟩)
      · exact earlier
      · exact (missing caller parsed found located).elim

theorem mem_foldl_tallySite (sites : List ParsedCallSite) (tally : GraphTally)
    (edge : CallEdgeRecord) :
    edge ∈ (sites.foldl (tallySite platform unicode scope parsedFiles symbols) tally).edges ↔
      edge ∈ tally.edges ∨ ∃ site ∈ sites, ∃ caller resolution,
        Draws unicode parsedFiles symbols site caller resolution ∧
          edge = edgeRecord platform scope site caller resolution := by
  induction sites generalizing tally with
  | nil => simp
  | cons site sites ih =>
      rw [List.foldl_cons, ih, tallySite_edges, List.exists_mem_cons_iff, or_assoc]

/-- The graph holds one edge for each call whose caller and file are known. -/
theorem mem_graph_edges {maxTotalCallSites : Nat} {graph : CallGraph}
    (built : buildCallGraph platform unicode maxTotalCallSites scope parsedFiles symbols =
      .ok graph) (edge : CallEdgeRecord) :
    edge ∈ graph.edges ↔ ∃ site ∈ parsedFiles.flatMap (·.callSites), ∃ caller resolution,
      Draws unicode parsedFiles symbols site caller resolution ∧
        edge = edgeRecord platform scope site caller resolution := by
  unfold buildCallGraph at built
  split at built
  · cases built
  · cases built
    simp only [sortRecords, mem_sortOn, buildTally]
    rw [mem_foldl_tallySite]
    simp

theorem Draws.mem {maxTotalCallSites : Nat} {graph : CallGraph}
    (built : buildCallGraph platform unicode maxTotalCallSites scope parsedFiles symbols =
      .ok graph) {site : ParsedCallSite} (within : site ∈ parsedFiles.flatMap (·.callSites))
    {caller : SymbolRecord} {resolution : Resolution}
    (draws : Draws unicode parsedFiles symbols site caller resolution) :
    edgeRecord platform scope site caller resolution ∈ graph.edges :=
  (mem_graph_edges built _).mpr ⟨site, within, caller, resolution, draws, rfl⟩

end Edges

/-! ## Resolution of a receiver -/

/-- The first dotted part is `self` or `cls`. -/
def isReceiverCall (expression : String) : Bool :=
  match splitText '.' expression with
  | head :: _ => head = "self" ∨ head = "cls"
  | [] => false

/-- The callee of an exact resolution. -/
def ExactCallee (resolution : Resolution) (callee : SymbolRecord) : Prop :=
  resolution.callee = some callee ∧ resolution.kind ≠ .probableMethod

section Resolution

variable {unicode : UnicodeTables} {symbols : List SymbolRecord} {caller callee : SymbolRecord}
  {parsed : ParsedFile}

theorem exactCallee_exactOrAmbiguous {found : List SymbolRecord} {kind : ResolutionType}
    (exact : kind ≠ .probableMethod) :
    ExactCallee (exactOrAmbiguous found kind) callee ↔ found = [callee] := by
  unfold exactOrAmbiguous ExactCallee
  split
  case h_1 symbol => simp [exact]
  · simp
  case h_3 several _ => simpa using several callee

theorem not_exactCallee_unresolved : ¬ ExactCallee unresolvedCall callee := by
  simp [ExactCallee, unresolvedCall]

/-- A bare name is exact by the one symbol of its nearest scope, or without such a
scope by the one symbol of the first import that leads to any. -/
theorem exactCallee_resolveIdentifier {name : String} :
    ExactCallee (resolveIdentifier symbols caller parsed name) callee ↔
      (∃ scope, NearestScope symbols parsed.moduleName caller.qualifiedName name scope ∧
        OnlyOf symbols (scope ++ "." ++ name) callee) ∨
      (∀ scope, ¬ NearestScope symbols parsed.moduleName caller.qualifiedName name scope) ∧
        ∃ imported, FirstLed symbols
            (namesThrough ((importBindings parsed).filter (!·.ofModule)) name []) imported ∧
          OnlyOf symbols imported callee := by
  have looked := @resolveIdentifier_lookup symbols caller parsed name
  generalize resolveIdentifier symbols caller parsed name = resolution at looked ⊢
  cases looked with
  | @near scope nearest =>
      rw [exactCallee_exactOrAmbiguous (by decide), ← OnlyOf]
      constructor
      · exact fun only => .inl ⟨scope, nearest, only⟩
      · rintro (⟨other, otherNearest, only⟩ | ⟨unscoped, -⟩)
        · exact nearest.unique otherNearest ▸ only
        · exact absurd nearest (unscoped scope)
  | @imported path unscoped first =>
      rw [exactCallee_exactOrAmbiguous (by decide), ← OnlyOf]
      constructor
      · exact fun only => .inr ⟨unscoped, path, first, only⟩
      · rintro (⟨other, otherNearest, -⟩ | ⟨-, other, otherFirst, only⟩)
        · exact absurd otherNearest (unscoped other)
        · exact first.unique otherFirst ▸ only
  | unknown unscoped nowhere =>
      refine iff_of_false not_exactCallee_unresolved ?_
      rintro (⟨other, otherNearest, -⟩ | ⟨-, other, otherFirst, -⟩)
      · exact unscoped other otherNearest
      · exact nowhere.unled other otherFirst

theorem isIdentifier_receiver {name : String} (receiver : name = "self" ∨ name = "cls") :
    isIdentifier unicode name = true := by
  rcases receiver with rfl | rfl
  · rfl
  · rfl

theorem exactCallee_bare {expression name : String} (split : splitText '.' expression = [name])
    (receiver : name = "self" ∨ name = "cls") :
    ExactCallee (resolve unicode symbols expression caller parsed) callee ↔
      ExactCallee (resolveIdentifier symbols caller parsed name) callee := by
  rw [eq_of_splitText_singleton split, resolve, if_pos (isIdentifier_receiver receiver)]

theorem exactCallee_dotted {expression head next : String} {tail : List String}
    (split : splitText '.' expression = head :: next :: tail)
    (receiver : head = "self" ∨ head = "cls") :
    ExactCallee (resolve unicode symbols expression caller parsed) callee ↔
      (head :: next :: tail).all (isIdentifier unicode) = true ∧
        withQualifiedName symbols (receiverTarget caller (tail.getLastD next)) = [callee] := by
  have dotted := not_isIdentifier_of_dot unicode (mem_of_splitText_pair split)
  have last : (next :: tail).getLastD head = tail.getLastD next := List.getLastD_cons
  rw [resolve, dotted, if_neg (by decide), split]
  dsimp only
  by_cases identifiers : (head :: next :: tail).all (isIdentifier unicode) = true
  · rw [if_pos identifiers, resolveAttribute, if_pos receiver, last,
      exactCallee_exactOrAmbiguous (by decide)]
    simp [identifiers]
  · rw [if_neg identifiers]
    simp [identifiers, not_exactCallee_unresolved]

end Resolution

/-! ## Soundness of receiver edges -/

section Soundness

variable (limits : ParserLimits) (platform : Platform) (unicode : UnicodeTables)
  (sources : List ParsedSource)

/-- Two definitions of one source stand directly in the body of one class. -/
def InOneClass (source : ParsedSource) (left right : ScopedDefinition) : Prop :=
  ∃ index owner, left.enclosing = some index ∧ right.enclosing = some index ∧
    (source.scopes limits.pythonParser platform)[index]? = some owner ∧
    owner.symbol.symbolType = .classType

/-- The callee is a member of the caller's own immediately enclosing class. -/
def OwnMember (caller callee : SymbolRecord) : Prop :=
  ∃ source ∈ sources, ∃ method ∈ source.recorded limits platform,
    ∃ member ∈ source.recorded limits platform, symbolRecord method.symbol = caller ∧
      symbolRecord member.symbol = callee ∧ InOneClass limits platform source method member

/-- A definition around the caller directly defines the name. -/
def OwnerDefines (caller : SymbolRecord) (name : String) : Prop :=
  ∃ source ∈ sources, ∃ method ∈ source.recorded limits platform,
    ∃ member ∈ source.recorded limits platform, symbolRecord method.symbol = caller ∧
      member.symbol.name = name ∧ ∃ index, method.enclosing = some index ∧
        member.enclosing = some index

/-- An exact edge of the graph, for this call, from this caller to this callee. -/
def ExactEdge (scope : GraphScope) (graph : CallGraph) (site : ParsedCallSite)
    (caller callee : SymbolRecord) : Prop :=
  ∃ resolution, Draws unicode (parsedFilesOf limits platform sources)
      (recordsOf limits platform sources) site caller resolution ∧
    edgeRecord platform scope site caller resolution ∈ graph.edges ∧
    ExactCallee resolution callee

/-- Every exact edge of a receiver call has two parts, a method as its caller,
and a member of the method's own class as its callee. -/
def ReceiversSound (scope : GraphScope) (graph : CallGraph) : Prop :=
  ∀ site ∈ callSitesOf limits platform sources, isReceiverCall site.expression = true →
    ∀ caller callee, ExactEdge limits platform unicode sources scope graph site caller callee →
      (splitText '.' site.expression).length = 2 ∧ caller.symbolType = .method ∧
        OwnMember limits platform sources caller callee

/-- One symbol alone has the name in the scope that the caller stands in. -/
def LoneBeside (caller : SymbolRecord) (name : String) : Prop :=
  ∃ symbol, OnlyOf (recordsOf limits platform sources) (receiverTarget caller name) symbol

/-- The calls that mislead the builder do not occur: a definition or an import
that is itself called `self` or `cls`; a caller that is no method, a call of more
than two parts, or a class without such a member, each with one symbol alone of
the last part's name beside the caller. -/
structure ReceiverApart (caller : SymbolRecord) (parsed : ParsedFile) (parts : List String) :
    Prop where
  defined : ∀ name scope symbol, parts = [name] →
    NearestScope (recordsOf limits platform sources) parsed.moduleName caller.qualifiedName name
      scope →
    ¬ OnlyOf (recordsOf limits platform sources) (scope ++ "." ++ name) symbol
  imported : ∀ name path symbol, parts = [name] →
    (∀ scope, ¬ NearestScope (recordsOf limits platform sources) parsed.moduleName
      caller.qualifiedName name scope) →
    FirstLed (recordsOf limits platform sources)
      (namesThrough ((importBindings parsed).filter (!·.ofModule)) name []) path →
    ¬ OnlyOf (recordsOf limits platform sources) path symbol
  plain : ∀ name, 2 ≤ parts.length → parts.getLast? = some name →
    parts.all (isIdentifier unicode) = true → caller.symbolType ≠ .method →
    ¬ LoneBeside limits platform sources caller name
  chained : ∀ name, 2 < parts.length → parts.getLast? = some name →
    parts.all (isIdentifier unicode) = true → ¬ LoneBeside limits platform sources caller name
  foreign : ∀ name, parts.length = 2 → parts.getLast? = some name →
    parts.all (isIdentifier unicode) = true →
    ¬ OwnerDefines limits platform sources caller name →
    ¬ LoneBeside limits platform sources caller name

/-- Names of definitions are identifier tokens: they hold no dot. -/
def PlainNames : Prop :=
  ∀ source ∈ sources, ∀ definition ∈ source.scopes limits.pythonParser platform,
    '.' ∉ definition.symbol.name.toList

end Soundness

section Proofs

variable {limits : ParserLimits} {platform : Platform} {unicode : UnicodeTables}
  {sources : List ParsedSource}

/-- A nested definition's qualified name, cut at its last dot. -/
theorem receiverTarget_nested {source : ParsedSource} (plain : PlainNames limits platform sources)
    (within : source ∈ sources) {definition : ScopedDefinition}
    (member : definition ∈ source.scopes limits.pythonParser platform) {index : Nat}
    (nested : definition.enclosing = some index) :
    ∃ owner, (source.scopes limits.pythonParser platform)[index]? = some owner ∧
      (definition.symbol.symbolType = .method → owner.symbol.symbolType = .classType) ∧
      definition.symbol.qualifiedName =
        owner.symbol.qualifiedName ++ "." ++ definition.symbol.name ∧
      ∀ name, receiverTarget (symbolRecord definition.symbol) name =
        owner.symbol.qualifiedName ++ "." ++ name := by
  have named := definitionScopes_named limits.pythonParser platform source.file source.root
    definition member
  unfold NamedWithin at named
  rw [nested] at named
  obtain ⟨owner, found, qualified, method⟩ := named
  refine ⟨owner, found, method, qualified, ?_⟩
  intro name
  have free := plain source within definition member
  have cut : rpartitionHead '.' definition.symbol.qualifiedName = owner.symbol.qualifiedName := by
    rw [qualified]
    exact rpartitionHead_append free
  rw [receiverTarget, symbolRecord, cut]

theorem ownMember_of_defines (plain : PlainNames limits platform sources)
    {caller callee : SymbolRecord} {name : String} (method : caller.symbolType = .method)
    (defines : OwnerDefines limits platform sources caller name)
    (found : withQualifiedName (recordsOf limits platform sources) (receiverTarget caller name) =
      [callee]) : OwnMember limits platform sources caller callee := by
  obtain ⟨source, within, calling, callingMember, member, memberMember, same, rfl, index, around,
    beside⟩ := defines
  subst same
  obtain ⟨owner, located, ownerClass, _, target⟩ :=
    receiverTarget_nested plain within (recorded_mem callingMember) around
  obtain ⟨other, otherLocated, _, qualified, _⟩ :=
    receiverTarget_nested plain within (recorded_mem memberMember) beside
  have sameOwner : other = owner := Option.some.inj (otherLocated.symm.trans located)
  have listed : symbolRecord member.symbol ∈ withQualifiedName (recordsOf limits platform sources)
      (receiverTarget (symbolRecord calling.symbol) member.symbol.name) := by
    refine List.mem_filter.mpr ⟨mem_recordsOf.mpr ⟨source, within, member, memberMember, rfl⟩, ?_⟩
    rw [target, ← sameOwner, ← qualified]
    exact decide_eq_true rfl
  rw [found, List.mem_singleton] at listed
  exact ⟨source, within, calling, callingMember, member, memberMember, rfl, listed, index, owner,
    around, beside, located, ownerClass method⟩

theorem defines_of_ownMember (plain : PlainNames limits platform sources)
    {caller callee : SymbolRecord} {name : String} (free : '.' ∉ name.toList)
    (own : OwnMember limits platform sources caller callee)
    (target : callee.qualifiedName = receiverTarget caller name) :
    OwnerDefines limits platform sources caller name := by
  obtain ⟨source, within, calling, callingMember, member, memberMember, rfl, rfl, index, owner,
    around, beside, located, _⟩ := own
  obtain ⟨first, firstLocated, _, _, targets⟩ :=
    receiverTarget_nested plain within (recorded_mem callingMember) around
  obtain ⟨second, secondLocated, _, qualified, _⟩ :=
    receiverTarget_nested plain within (recorded_mem memberMember) beside
  have same : second = first := Option.some.inj (secondLocated.symm.trans firstLocated)
  have texts : second.symbol.qualifiedName ++ "." ++ member.symbol.name =
      first.symbol.qualifiedName ++ "." ++ name := by
    rw [← qualified, ← targets]
    exact target
  have chars := congrArg String.toList texts
  simp only [String.toList_append, List.append_assoc] at chars
  have names := (cut_last (plain source within member (recorded_mem memberMember)) free chars).2
  exact ⟨source, within, calling, callingMember, member, memberMember, rfl,
    String.toList_inj.mp names, index, around, beside⟩

/-- A bare `self` or `cls` never has an exact callee exactly when it does not mislead. -/
theorem bare_sound_iff_apart {caller : SymbolRecord} {parsed : ParsedFile} {name : String} :
    (∀ callee, ¬ ExactCallee (resolveIdentifier (recordsOf limits platform sources) caller parsed
        name) callee) ↔
      ReceiverApart limits platform unicode sources caller parsed [name] := by
  simp only [exactCallee_resolveIdentifier]
  constructor
  · intro inexact
    constructor
    case defined =>
      rintro _ scope symbol ⟨⟩ near only
      exact inexact symbol (.inl ⟨scope, near, only⟩)
    case imported =>
      rintro _ path symbol ⟨⟩ unscoped led only
      exact inexact symbol (.inr ⟨unscoped, path, led, only⟩)
    case plain => exact fun name long => absurd long (by simp)
    case chained => exact fun name long => absurd long (by simp)
    case foreign => exact fun name long => absurd long (by simp)
  · rintro apart callee (⟨scope, near, only⟩ | ⟨unscoped, path, led, only⟩)
    · exact apart.defined name scope callee rfl near only
    · exact apart.imported name path callee rfl unscoped led only

/-- A member of `self` or `cls` is one of the caller's own class exactly when the
call does not mislead. -/
theorem members_sound_iff_apart (plain : PlainNames limits platform sources)
    {caller : SymbolRecord} {parsed : ParsedFile} {head next : String} {tail : List String}
    (free : '.' ∉ next.toList) :
    (∀ callee, (head :: next :: tail).all (isIdentifier unicode) = true ∧
        OnlyOf (recordsOf limits platform sources) (receiverTarget caller (tail.getLastD next))
          callee →
      (head :: next :: tail).length = 2 ∧ caller.symbolType = .method ∧
        OwnMember limits platform sources caller callee) ↔
      ReceiverApart limits platform unicode sources caller parsed (head :: next :: tail) := by
  have last : (head :: next :: tail).getLast? = some (tail.getLastD next) := by
    rw [List.getLast?_cons_cons, List.getLast?_cons, List.getLastD_eq_getLast?]
  constructor
  · intro sound
    have met : ∀ name, (head :: next :: tail).getLast? = some name →
        (head :: next :: tail).all (isIdentifier unicode) = true →
        LoneBeside limits platform sources caller name → tail = [] ∧
          caller.symbolType = .method ∧ OwnerDefines limits platform sources caller name := by
      rintro name isLast identifiers ⟨callee, only⟩
      rw [last] at isLast
      cases isLast
      obtain ⟨two, method, own⟩ := sound callee ⟨identifiers, only⟩
      have short : tail = [] := List.length_eq_zero_iff.mp (by simpa using two)
      subst short
      have listed : callee ∈ withQualifiedName (recordsOf limits platform sources)
          (receiverTarget caller next) := only ▸ List.mem_singleton_self _
      have target := of_decide_eq_true (List.mem_filter.mp listed).2
      exact ⟨rfl, method, defines_of_ownMember plain free own target⟩
    constructor
    case defined =>
      rintro _ _ _ ⟨⟩
    case imported =>
      rintro _ _ _ ⟨⟩
    case plain =>
      intro name _ isLast identifiers other lone
      exact other (met name isLast identifiers lone).2.1
    case chained =>
      intro name long isLast identifiers lone
      rw [(met name isLast identifiers lone).1] at long
      exact absurd long (by simp)
    case foreign =>
      intro name _ isLast identifiers undefined lone
      exact undefined (met name isLast identifiers lone).2.2
  · rintro apart callee ⟨identifiers, only⟩
    have lone : LoneBeside limits platform sources caller (tail.getLastD next) := ⟨callee, only⟩
    have method : caller.symbolType = .method := by
      by_contra other
      exact apart.plain _ (by simp) last identifiers other lone
    have short : tail = [] := by
      by_contra long
      have filled := List.length_pos_iff.mpr long
      exact apart.chained _ (by simp only [List.length_cons]; omega) last identifiers lone
    subst short
    have defines : OwnerDefines limits platform sources caller next := by
      by_contra undefined
      exact apart.foreign next rfl last identifiers undefined lone
    exact ⟨rfl, method, ownMember_of_defines plain method defines only⟩

/-- What soundness asks of the exact callees of one call is that it misleads in
none of the ways. -/
theorem call_sound_iff_apart (plain : PlainNames limits platform sources) {expression : String}
    (receiver : isReceiverCall expression = true) (caller : SymbolRecord) (parsed : ParsedFile) :
    (∀ callee, ExactCallee (resolve unicode (recordsOf limits platform sources) expression caller
        parsed) callee →
      (splitText '.' expression).length = 2 ∧ caller.symbolType = .method ∧
        OwnMember limits platform sources caller callee) ↔
      ReceiverApart limits platform unicode sources caller parsed
        (splitText '.' expression) := by
  unfold isReceiverCall at receiver
  cases split : splitText '.' expression with
  | nil =>
      rw [split] at receiver
      cases receiver
  | cons head rest =>
      rw [split] at receiver
      have named : head = "self" ∨ head = "cls" := by simpa using receiver
      cases rest with
      | nil =>
          rw [← bare_sound_iff_apart]
          simp only [exactCallee_bare split named]
          refine forall_congr' fun callee => ?_
          exact ⟨fun sound exact => absurd (sound exact).1 (by simp),
            fun inexact exact => absurd exact inexact⟩
      | cons next tail =>
          have free : '.' ∉ next.toList :=
            splitText_free (split ▸ List.mem_cons_of_mem _ List.mem_cons_self)
          simp only [exactCallee_dotted split named]
          exact members_sound_iff_apart plain free

/-- The graph's exact receiver edges are sound exactly when no receiver call
misleads. -/
theorem receivers_sound_iff_apart (plain : PlainNames limits platform sources)
    {maxTotalCallSites : Nat} {scope : GraphScope} {graph : CallGraph}
    (built : buildCallGraph platform unicode maxTotalCallSites scope
      (parsedFilesOf limits platform sources) (recordsOf limits platform sources) = .ok graph) :
    ReceiversSound limits platform unicode sources scope graph ↔
      ∀ site ∈ callSitesOf limits platform sources, isReceiverCall site.expression = true →
        ∀ caller parsed,
          OnlyOf (recordsOf limits platform sources) site.callerQualifiedName caller →
          fileAt (parsedFilesOf limits platform sources) site.filePath = some parsed →
          ReceiverApart limits platform unicode sources caller parsed
            (splitText '.' site.expression) := by
  constructor
  · intro sound site within receiver caller parsed found located
    apply (call_sound_iff_apart plain receiver caller parsed).mp
    intro callee exact
    have draws : Draws unicode (parsedFilesOf limits platform sources)
        (recordsOf limits platform sources) site caller
        (resolve unicode (recordsOf limits platform sources) site.expression caller parsed) :=
      ⟨onlyOf_iff_one.mp found, parsed, located, rfl⟩
    exact sound site within receiver caller callee ⟨_, draws, draws.mem built within, exact⟩
  · rintro apart site within receiver caller callee ⟨_, ⟨found, parsed, located, rfl⟩, _, exact⟩
    exact (call_sound_iff_apart plain receiver caller parsed).mpr
      (apart site within receiver caller parsed (onlyOf_iff_one.mpr found) located) callee exact

end Proofs

/-! ## A class and two plain functions -/

namespace ReceiverSamples

def platform : Platform where
  sha256Hex := fun text => text
  uuid5 := fun uuidNamespace text => uuidNamespace + text.utf8ByteSize
  textLe := fun left right => left ≤ right

def unicode : UnicodeTables := ⟨fun _ => false, fun _ => false⟩

def limits : ParserLimits where
  maxSymbolsPerFile := 10
  maxSymbolBytes := 100
  maxChunkBytes := 100
  maxChunksPerFile := 10
  maxTotalChunks := 10
  maxTotalChunkBytes := 1000
  maxDocumentSectionBytes := 100
  maxWarningsPerFile := 10
  maxCallSitesPerFile := 10
  maxTotalCallSites := 10
  maxCallExpressionBytes := 100

def node (type : String) (fieldName : Option String) (bytes : Nat × Nat) (first last : Point)
    (children : List Node) : Node :=
  .node
    { type := type
      fieldName := fieldName
      startByte := bytes.1
      endByte := bytes.2
      startPoint := first
      endPoint := last } children

/-- `class A` with a method that calls the other on `self`. -/
def methods : ParsedSource where
  file := sourceFile "m.py"
    "class A:\n def f(self):\n  self.g()\n def g(self):\n  pass\n".toList "commit"
  root := node "module" none (0, 55) ⟨0, 0⟩ ⟨5, 0⟩ [
    node "class_definition" none (0, 54) ⟨0, 0⟩ ⟨4, 6⟩ [
      node "identifier" (some "name") (6, 7) ⟨0, 6⟩ ⟨0, 7⟩ [],
      node "block" (some "body") (10, 54) ⟨1, 1⟩ ⟨4, 6⟩ [
        node "function_definition" none (10, 33) ⟨1, 1⟩ ⟨2, 10⟩ [
          node "identifier" (some "name") (14, 15) ⟨1, 5⟩ ⟨1, 6⟩ [],
          node "block" (some "body") (25, 33) ⟨2, 2⟩ ⟨2, 10⟩ [
            node "call" none (25, 33) ⟨2, 2⟩ ⟨2, 10⟩ [
              node "attribute" (some "function") (25, 31) ⟨2, 2⟩ ⟨2, 8⟩ []]]],
        node "function_definition" none (35, 54) ⟨3, 1⟩ ⟨4, 6⟩ [
          node "identifier" (some "name") (39, 40) ⟨3, 5⟩ ⟨3, 6⟩ [],
          node "block" (some "body") (50, 54) ⟨4, 2⟩ ⟨4, 6⟩ []]]]]

/-- A plain function whose first parameter is called `self`. -/
def functions : ParsedSource where
  file := sourceFile "m.py" "def f(self):\n self.g()\ndef g():\n pass\n".toList "commit"
  root := node "module" none (0, 38) ⟨0, 0⟩ ⟨4, 0⟩ [
    node "function_definition" none (0, 22) ⟨0, 0⟩ ⟨1, 9⟩ [
      node "identifier" (some "name") (4, 5) ⟨0, 4⟩ ⟨0, 5⟩ [],
      node "block" (some "body") (14, 22) ⟨1, 1⟩ ⟨1, 9⟩ [
        node "call" none (14, 22) ⟨1, 1⟩ ⟨1, 9⟩ [
          node "attribute" (some "function") (14, 20) ⟨1, 1⟩ ⟨1, 7⟩ []]]],
    node "function_definition" none (23, 37) ⟨2, 0⟩ ⟨3, 5⟩ [
      node "identifier" (some "name") (27, 28) ⟨2, 4⟩ ⟨2, 5⟩ [],
      node "block" (some "body") (33, 37) ⟨3, 1⟩ ⟨3, 5⟩ []]]

def scope : GraphScope := ⟨1, 1, "commit"⟩

def graphOf (sources : List ParsedSource) : Except Failure CallGraph :=
  buildCallGraph platform unicode limits.maxTotalCallSites scope
    (parsedFilesOf limits platform sources) (recordsOf limits platform sources)

theorem graphOf_built {sources : List ParsedSource} (counted : (graphOf sources).isOk = true) :
    ∃ graph, graphOf sources = .ok graph := by
  cases built : graphOf sources with
  | error failure =>
      rw [built] at counted
      cases counted
  | ok graph => exact ⟨graph, rfl⟩

/-- Every call is `self.g()` in a method whose class defines `g`. -/
def membersDefined (source : ParsedSource) : Bool :=
  (callSitesOf limits platform [source]).all fun site =>
    splitText '.' site.expression == ["self", "g"] &&
      (one (withQualifiedName (recordsOf limits platform [source])
        site.callerQualifiedName)).all fun caller =>
          caller.symbolType == .method &&
            (source.recorded limits platform).any fun method =>
              (source.recorded limits platform).any fun member =>
                symbolRecord method.symbol == caller && member.symbol.name == "g" &&
                  method.enclosing.isSome && member.enclosing == method.enclosing

/-- Some receiver call with an exact callee has a caller that is no method. -/
def strayReceiver (source : ParsedSource) : Bool :=
  (callSitesOf limits platform [source]).any fun site =>
    isReceiverCall site.expression &&
      (one (withQualifiedName (recordsOf limits platform [source])
        site.callerQualifiedName)).any fun caller =>
          caller.symbolType != .method &&
            (fileAt (parsedFilesOf limits platform [source]) site.filePath).any fun parsed =>
              let resolution := resolve unicode (recordsOf limits platform [source])
                site.expression caller parsed
              resolution.callee.isSome && resolution.kind != .probableMethod

end ReceiverSamples

open ReceiverSamples in
/-- The call between two methods of one class. -/
theorem method_call_sound : ∃ graph, graphOf [methods] = .ok graph ∧
    ReceiversSound limits platform unicode [methods] scope graph := by
  have counted : (graphOf [methods]).isOk = true := by decide +kernel
  have defined : membersDefined methods = true := by decide +kernel
  have dotless : (methods.scopes limits.pythonParser platform).all
      (fun definition => '.' ∉ definition.symbol.name.toList) = true := by decide +kernel
  have plain : PlainNames limits platform [methods] := by
    intro source within definition member
    rw [List.mem_singleton.mp within] at member
    exact of_decide_eq_true (List.all_eq_true.mp dotless definition member)
  obtain ⟨graph, built⟩ := graphOf_built counted
  refine ⟨graph, built, (receivers_sound_iff_apart plain built).mpr ?_⟩
  intro site within _ caller parsed found _
  replace found := onlyOf_iff_one.mp found
  have checked := List.all_eq_true.mp defined site within
  simp only [Bool.and_eq_true, beq_iff_eq, found, Option.all_some, List.any_eq_true] at checked
  obtain ⟨parts, method, calling, callingMember, member, memberMember, facts⟩ := checked
  obtain ⟨index, around⟩ := Option.isSome_iff_exists.mp facts.1.2
  rw [parts]
  have defines : OwnerDefines limits platform [methods] caller "g" :=
    ⟨methods, List.mem_singleton_self _, calling, callingMember, member, memberMember,
      facts.1.1.1, facts.1.1.2, index, around, facts.2.trans around⟩
  refine ⟨?_, ?_, fun name _ _ _ other => absurd method other, ?_, ?_⟩
  · exact fun name scope symbol same => absurd same (by simp)
  · exact fun name path symbol same => absurd same (by simp)
  · exact fun name long => absurd long (by simp)
  · rintro name - ⟨⟩ - undefined
    exact absurd defines undefined

open ReceiverSamples in
/-- `self.g()` in a plain function is drawn to the module's function `g`. -/
theorem plain_function_receiver : ∃ graph, graphOf [functions] = .ok graph ∧
    ¬ ReceiversSound limits platform unicode [functions] scope graph := by
  have counted : (graphOf [functions]).isOk = true := by decide +kernel
  have stray : strayReceiver functions = true := by decide +kernel
  obtain ⟨graph, built⟩ := graphOf_built counted
  refine ⟨graph, built, fun sound => ?_⟩
  obtain ⟨site, within, checked⟩ := List.any_eq_true.mp stray
  simp only [Bool.and_eq_true] at checked
  obtain ⟨receiver, called⟩ := checked
  obtain ⟨caller, found, facts⟩ := (Option.any_eq_true _ _).mp called
  simp only [Bool.and_eq_true, bne_iff_ne] at facts
  obtain ⟨plainCaller, read⟩ := facts
  obtain ⟨parsed, located, exact⟩ := (Option.any_eq_true _ _).mp read
  simp only [Bool.and_eq_true, bne_iff_ne] at exact
  obtain ⟨callee, resolved⟩ := Option.isSome_iff_exists.mp exact.1
  have draws : Draws unicode (parsedFilesOf limits platform [functions])
      (recordsOf limits platform [functions]) site caller
      (resolve unicode (recordsOf limits platform [functions]) site.expression caller
        parsed) := ⟨found, parsed, located, rfl⟩
  exact plainCaller (sound site within receiver caller callee
    ⟨_, draws, draws.mem built within, resolved, exact.2⟩).2.1

end Codenaut.Indexing
