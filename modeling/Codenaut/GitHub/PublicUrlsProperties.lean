import Codenaut.GitHub.PublicUrls
import Codenaut.Text.Ascii

/-!
# Exactness of public repository URLs

The parser accepts the spellings of a repository and no other text. When the
canonical URL it gives is read back as the same repository depends on the name.
-/

set_option autoImplicit false

namespace Codenaut.GitHub

open Codenaut.Text

/-! ## Characters -/

/-- A character of an accepted text. -/
def isPlain (char : Char) : Bool :=
  33 ≤ char.toNat && char.toNat < 127 && char != '%' && char != '\\'

theorem isPlain.ascii {char : Char} (plain : isPlain char = true) : char.toNat < 128 := by
  simp only [isPlain, Bool.and_eq_true, decide_eq_true_eq] at plain
  omega

theorem isPlain.not_isSpace {char : Char} (plain : isPlain char = true) :
    isSpace char = false := by
  have ascii := isPlain.ascii plain
  revert plain
  exact of_ascii_table ascii (by decide +kernel)

theorem ascii_of_isSegmentChar {char : Char} (segment : isSegmentChar char = true) :
    char.toNat < 128 := by
  simp only [isSegmentChar, Bool.or_eq_true, decide_eq_true_eq] at segment
  rcases segment with alphanum | punctuation
  · exact ascii_of_isAlphanum alphanum
  · exact forall_mem_of_all (P := fun char => char.toNat < 128) (by decide) char punctuation

/-- The characters of a segment are plain and none of the delimiters. -/
theorem plain_of_isSegmentChar {char : Char} (segment : isSegmentChar char = true) :
    isPlain char = true ∧ char ∉ ['/', '?', '#', ':', '@'] := by
  have ascii := ascii_of_isSegmentChar segment
  revert segment
  exact of_ascii_table ascii (by decide +kernel)

theorem isSegmentChar_of_mem {segment : List Char} (valid : isSegment segment = true)
    {char : Char} (member : char ∈ segment) : isSegmentChar char = true := by
  cases segment with
  | nil => cases member
  | cons head tail =>
      simp only [isSegment, Bool.and_eq_true, List.all_eq_true] at valid
      rcases List.mem_cons.mp member with rfl | later
      · simp [isSegmentChar, valid.1.1]
      · exact valid.2 char later

theorem length_of_isSegment {segment : List Char} (valid : isSegment segment = true) :
    1 ≤ segment.length ∧ segment.length ≤ 255 := by
  cases segment with
  | nil => cases valid
  | cons head tail =>
      simp only [isSegment, Bool.and_eq_true, decide_eq_true_eq] at valid
      simp only [List.length_cons]
      omega

theorem plain_of_host {host : List Char} (github : lowerChars host = githubHost) {char : Char}
    (member : char ∈ host) :
    isPlain char = true ∧ char ∉ ['/', '?', '#', '@', ':', '[', ']', '%'] := by
  have hostAscii : ∀ char ∈ githubHost, char.toNat < 128 := forall_mem_of_all (by decide)
  obtain ⟨ascii, lowered⟩ := ascii_of_lowerChars github hostAscii (by decide) member
  clear member
  revert lowered
  exact of_ascii_table ascii (by decide +kernel)

theorem plain_of_scheme {scheme : List Char} (secure : scheme.map Char.toLower = https)
    {char : Char} (member : char ∈ scheme) :
    isPlain char = true ∧ char.isAlpha = true ∧ isSchemeChar char = true ∧
      char ∉ [':', '/', '?', '#'] := by
  have lowered : char.toLower ∈ https := secure ▸ List.mem_map_of_mem member
  have lowerAscii : ∀ char ∈ https, char.toNat < 128 := forall_mem_of_all (by decide)
  have ascii := ascii_of_toLower (lowerAscii _ lowered)
  clear member
  revert lowered
  exact of_ascii_table ascii (by decide +kernel)

/-! ## Splitting an accepted value -/

theorem cleaned_eq {value : List Char} (first : ∀ char ∈ value.head?, isControlOrSpace char = false)
    (printable : ∀ char ∈ value, 32 ≤ char.toNat) :
    (value.dropWhile isControlOrSpace).filter (· ∉ unsafeChars) = value := by
  have kept : value.dropWhile isControlOrSpace = value := by
    cases value with
    | nil => rfl
    | cons head tail => simp [first head rfl]
  rw [kept, List.filter_eq_self]
  intro char member
  have large := printable char member
  rw [decide_eq_true_iff]
  intro unsafeChar
  have small : ∀ char ∈ unsafeChars, char.toNat < 32 := forall_mem_of_all (by decide)
  have := small char unsafeChar
  omega

theorem splitScheme_https_iff {url rest : List Char} :
    splitScheme url = (https, rest) ↔
      ∃ scheme, scheme.map Char.toLower = https ∧ url = scheme ++ ':' :: rest := by
  constructor
  · intro split
    obtain ⟨joined, -⟩ := rejoin_partition ':' url
    unfold splitScheme at split
    split at split
    · next head tail after cut =>
        rw [cut] at joined
        split at split
        · obtain ⟨lowered, rfl⟩ := Prod.mk.inj split
          exact ⟨head :: tail, lowered, joined.symm⟩
        · cases (Prod.mk.inj split).1
    · cases (Prod.mk.inj split).1
  · rintro ⟨scheme, lowered, rfl⟩
    have free : ':' ∉ scheme := fun member =>
      (plain_of_scheme lowered member).2.2.2 (by simp)
    unfold splitScheme
    rw [partition_cut free]
    cases scheme with
    | nil => cases lowered
    | cons head tail =>
        have alpha := (plain_of_scheme lowered (List.mem_cons_self (a := head) (l := tail))).2.1
        have all : (head :: tail).all isSchemeChar = true :=
          List.all_eq_true.mpr fun char member => (plain_of_scheme lowered member).2.2.1
        dsimp only
        rw [alpha, all, lowered]
        rfl

theorem splitNetloc_iff {url netloc rest : List Char} (github : lowerChars netloc = githubHost) :
    splitNetloc url = (netloc, rest) ↔
      url = '/' :: '/' :: (netloc ++ rest) ∧ ∀ char ∈ rest.head?, isNetloc char = false := by
  have inside : ∀ char ∈ netloc, isNetloc char = true := by
    intro char member
    have apart := (plain_of_host github member).2
    simp only [List.mem_cons, not_or] at apart
    simp [isNetloc, apart.1, apart.2.1, apart.2.2.1]
  constructor
  · intro split
    unfold splitNetloc at split
    split at split
    · next whole =>
        obtain ⟨rfl, -, stopped⟩ := takeWhile_dropWhile_iff.mp (Prod.mk.inj split)
        exact ⟨rfl, stopped⟩
    · obtain ⟨rfl, -⟩ := Prod.mk.inj split
      cases github
  · rintro ⟨rfl, stopped⟩
    exact Prod.ext_iff.mpr (takeWhile_dropWhile_iff.mpr ⟨rfl, inside, stopped⟩)

/-- An empty second part leaves the separator at most. -/
theorem partition_empty_iff {separator : Char} {text before : List Char} :
    (partition separator text).1 = before ∧ (partition separator text).2.getD [] = [] ↔
      separator ∉ before ∧ ∃ ending, (ending = [] ∨ ending = [separator]) ∧
        text = before ++ ending := by
  constructor
  · rintro ⟨rfl, empty⟩
    obtain ⟨joined, free⟩ := rejoin_partition separator text
    refine ⟨free, ?_⟩
    cases cut : (partition separator text).2 with
    | none =>
        rw [cut] at joined
        exact ⟨[], .inl rfl, by simpa [rejoin] using joined.symm⟩
    | some after =>
        rw [cut] at joined empty
        obtain rfl : after = [] := empty
        exact ⟨[separator], .inr rfl, joined.symm⟩
  · rintro ⟨free, ending, rfl | rfl, rfl⟩
    · simp [partition_whole free]
    · simp [partition_cut free]

/-- A query and a fragment that are empty leave their delimiters at most. -/
theorem splitTail_empty_iff {scheme netloc url path : List Char} :
    splitTail scheme netloc url = ⟨scheme, netloc, path, [], []⟩ ↔
      '?' ∉ path ∧ '#' ∉ path ∧ ∃ mark hash, (mark = [] ∨ mark = ['?']) ∧
        (hash = [] ∨ hash = ['#']) ∧ url = path ++ mark ++ hash := by
  constructor
  · intro split
    simp only [splitTail, SplitResult.mk.injEq, true_and] at split
    obtain ⟨samePath, query, fragment⟩ := split
    obtain ⟨noHash, hash, hashed, whole⟩ := partition_empty_iff.mp ⟨rfl, fragment⟩
    obtain ⟨noMark, mark, marked, outer⟩ := partition_empty_iff.mp ⟨samePath, query⟩
    rw [outer] at whole noHash
    exact ⟨noMark, fun member => noHash (List.mem_append_left _ member), mark, hash, marked, hashed,
      whole⟩
  · rintro ⟨noMark, noHash, mark, hash, marked, hashed, rfl⟩
    have free : '#' ∉ path ++ mark := by
      rcases marked with rfl | rfl <;> simpa using noHash
    obtain ⟨outer, fragment⟩ := partition_empty_iff.mpr ⟨free, hash, hashed, rfl⟩
    obtain ⟨inner, query⟩ := partition_empty_iff.mpr ⟨noMark, mark, marked, rfl⟩
    simp only [splitTail, outer, inner, query, fragment]

/-! ## The path -/

theorem segment_free {segment : List Char} (valid : isSegment segment = true) :
    '/' ∉ segment ∧ '?' ∉ segment ∧ '#' ∉ segment := by
  have apart : ∀ delimiter ∈ ['/', '?', '#'], delimiter ∉ segment := by
    intro delimiter listed member
    have among : ['/', '?', '#'] ⊆ ['/', '?', '#', ':', '@'] := by simp
    exact (plain_of_isSegmentChar (isSegmentChar_of_mem valid member)).2 (among listed)
  exact ⟨apart '/' (by simp), apart '?' (by simp), apart '#' (by simp)⟩

/-- The last part is the name with its suffix. -/
theorem strip_suffix_iff {last name : List Char} :
    (if gitSuffix <:+ last then last.take (last.length - 4) else last) = name ↔
      ∃ suffix, last = name ++ suffix ∧
        (suffix = gitSuffix ∨ suffix = [] ∧ ¬ gitSuffix <:+ name) := by
  constructor
  · rintro rfl
    split
    · next ends =>
        obtain ⟨front, rfl⟩ := ends
        exact ⟨gitSuffix, by simp [gitSuffix], .inl rfl⟩
    · next other => exact ⟨[], by simp, .inr ⟨rfl, other⟩⟩
  · rintro ⟨suffix, rfl, rfl | ⟨rfl, other⟩⟩
    · rw [if_pos (List.suffix_append _ _)]
      simp [gitSuffix]
    · rw [List.append_nil, if_neg other]

theorem segment_ne {segment : List Char} (valid : isSegment segment = true) :
    segment ≠ [] ∧ segment ∉ [['.'], ['.', '.']] := by
  constructor
  · rintro rfl
    cases valid
  · intro dots
    have invalid : ∀ other ∈ [['.'], ['.', '.']], isSegment other = false := by decide
    rw [invalid segment dots] at valid
    cases valid

/-- The path without its closing slash. -/
theorem trim_iff {whole path : List Char} (unclosed : path.getLast? ≠ some '/') :
    (if whole.getLast? = some '/' then whole.dropLast else whole) = path ↔
      ∃ ending, (ending = [] ∨ ending = ['/']) ∧ whole = path ++ ending := by
  constructor
  · rintro rfl
    split
    · next closed =>
        refine ⟨['/'], .inr rfl, ?_⟩
        exact (List.dropLast_append_getLast? '/' closed).symm
    · exact ⟨[], .inl rfl, by simp⟩
  · rintro ⟨ending, rfl | rfl, rfl⟩
    · rw [List.append_nil, if_neg unclosed]
    · simp

theorem splitOn_three_iff {path owner last : List Char} :
    path.splitOn '/' = [[], owner, last] ↔
      path = '/' :: (owner ++ '/' :: last) ∧ '/' ∉ owner ∧ '/' ∉ last := by
  constructor
  · intro split
    have joined : ['/'].intercalate (path.splitOn '/') = path := List.intercalate_splitOn '/'
    have free : ∀ part ∈ path.splitOn '/', '/' ∉ part := fun _ => not_mem_of_mem_splitOn
    rw [split] at joined free
    exact ⟨by simpa using joined.symm, free owner (by simp), free last (by simp)⟩
  · rintro ⟨rfl, ownerFree, lastFree⟩
    have free : ∀ part ∈ [[], owner, last], '/' ∉ part := by
      simp [ownerFree, lastFree]
    have split := List.splitOn_intercalate '/' free (by simp)
    simpa using split

theorem getLast?_ne_slash (front : List Char) {last : List Char} (nonempty : last ≠ [])
    (free : '/' ∉ last) : (front ++ last).getLast? ≠ some '/' := by
  rw [List.getLast?_append_of_ne_nil _ nonempty]
  intro closed
  exact free (List.mem_of_getLast? closed)

theorem parsePath_iff {whole owner name : List Char} :
    parsePath whole = some ⟨owner, name⟩ ↔
      isSegment owner = true ∧ isSegment name = true ∧
      ∃ suffix ending, (suffix = gitSuffix ∨ suffix = [] ∧ ¬ gitSuffix <:+ name) ∧
        (ending = [] ∨ ending = ['/']) ∧
        whole = '/' :: (owner ++ '/' :: (name ++ suffix)) ++ ending := by
  constructor
  · intro accepted
    unfold parsePath at accepted
    dsimp only at accepted
    split at accepted
    · next path first owner last split =>
        split at accepted
        · cases accepted
        next present =>
        rw [not_or, not_or, not_not] at present
        obtain ⟨rfl, -, lastSome⟩ := present
        generalize stripped : (if gitSuffix <:+ last then last.take (last.length - 4) else last) =
          name at accepted
        obtain ⟨suffix, whole, suffixed⟩ := strip_suffix_iff.mp stripped
        split at accepted
        · cases accepted
        next valid =>
        simp only [not_or, Bool.not_eq_false] at valid
        obtain ⟨-, -, -, ownerValid, nameValid⟩ := valid
        obtain ⟨joined, ownerFree, lastFree⟩ := splitOn_three_iff.mp split
        have unclosed : ('/' :: (owner ++ '/' :: last)).getLast? ≠ some '/' := by
          have ne := getLast?_ne_slash ('/' :: (owner ++ ['/'])) lastSome lastFree
          simpa using ne
        obtain ⟨ending, ended, rfl⟩ := (trim_iff unclosed).mp joined
        cases accepted
        refine ⟨ownerValid, nameValid, suffix, ending, suffixed, ended, ?_⟩
        rw [← whole]
    · cases accepted
  · rintro ⟨ownerValid, nameValid, suffix, ending, suffixed, ended, rfl⟩
    have suffixFree : '/' ∉ suffix := by
      rcases suffixed with rfl | ⟨rfl, -⟩
      · decide
      · exact List.not_mem_nil
    have lastFree : '/' ∉ name ++ suffix := by
      rw [List.mem_append, not_or]
      exact ⟨(segment_free nameValid).1, suffixFree⟩
    have lastSome : name ++ suffix ≠ [] := by
      simp [(segment_ne nameValid).1]
    have unclosed : ('/' :: (owner ++ '/' :: (name ++ suffix))).getLast? ≠ some '/' := by
      have ne := getLast?_ne_slash ('/' :: (owner ++ ['/'])) lastSome lastFree
      simpa using ne
    have trimmed := (trim_iff unclosed).mpr ⟨ending, ended, rfl⟩
    have stripped := strip_suffix_iff.mpr ⟨suffix, rfl, suffixed⟩
    have split := splitOn_three_iff.mpr ⟨rfl, (segment_free ownerValid).1, lastFree⟩
    unfold parsePath
    rw [trimmed]
    dsimp only
    rw [split]
    dsimp only
    rw [stripped, if_neg (by simp [(segment_ne ownerValid).1, (segment_ne nameValid).1])]
    refine if_neg ?_
    simp only [not_or]
    exact ⟨(segment_ne nameValid).1, (segment_ne ownerValid).2, (segment_ne nameValid).2,
      by simp [ownerValid], by simp [nameValid]⟩

/-! ## The whole value -/

theorem strip_length_le (text : List Char) :
    (strip text).length ≤ (text.dropWhile isSpace).length :=
  (List.rdropWhile_prefix isSpace _).length_le

/-- A stripped value does not begin with a blank. -/
theorem head_of_strip {value : List Char} (stripped : value = strip value) :
    ∀ char ∈ value.head?, isSpace char = false := by
  intro char first
  cases value with
  | nil => cases first
  | cons head tail =>
      obtain rfl : head = char := Option.some.inj first
      by_contra blank
      rw [Bool.not_eq_false] at blank
      have shorter := strip_length_le (head :: tail)
      rw [← stripped, List.dropWhile_cons_of_pos blank] at shorter
      have := (List.dropWhile_sublist isSpace (l := tail)).length_le
      simp only [List.length_cons] at shorter
      omega

theorem strip_of_plain {value : List Char} (plain : ∀ char ∈ value, isPlain char = true) :
    strip value = value := by
  have kept : value.dropWhile isSpace = value := by
    cases value with
    | nil => rfl
    | cons head tail => simp [isPlain.not_isSpace (plain head List.mem_cons_self)]
  rw [strip, kept, rstrip, List.rdropWhile_eq_self_iff]
  intro nonempty
  rw [isPlain.not_isSpace (plain _ (List.getLast_mem nonempty))]
  decide

theorem first_of_readable {value : List Char} (readable : ¬ Unreadable value) :
    (∀ char ∈ value.head?, isControlOrSpace char = false) ∧
      ∀ char ∈ value, 32 ≤ char.toNat := by
  simp only [Unreadable, not_or, not_exists, not_and, not_not, Nat.not_lt] at readable
  obtain ⟨-, -, stripped, printable, -⟩ := readable
  refine ⟨fun char first => ?_, printable⟩
  have visible := head_of_strip stripped char first
  have large := printable char (List.mem_of_mem_head? first)
  simp only [isControlOrSpace, decide_eq_false_iff_not, Nat.not_le]
  rcases Nat.lt_or_eq_of_le large with more | same
  · exact more
  · have blank : char = ' ' := Char.toNat_inj.mp same.symm
    rw [blank] at visible
    exact absurd visible (by decide)

namespace Spelling

variable (spelling : Spelling)

theorem host_name : IsName spelling.host := by
  intro delimiter listed member
  have among : ['@', ':', '[', ']', '%'] ⊆ ['/', '?', '#', '@', ':', '[', ']', '%'] := by simp
  exact (plain_of_host spelling.isGitHub member).2 (among listed)

theorem path_plain {char : Char} (member : char ∈ spelling.path) : isPlain char = true := by
  have segment : ∀ part, isSegment part = true → char ∈ part → isPlain char = true :=
    fun part valid inside => (plain_of_isSegmentChar (isSegmentChar_of_mem valid inside)).1
  have suffix : char ∈ spelling.suffix → isPlain char = true := by
    rcases spelling.suffixed with same | ⟨same, -⟩ <;> rw [same]
    · have table : ∀ char ∈ gitSuffix, isPlain char = true :=
        forall_mem_of_all (by decide)
      exact table char
    · exact fun inside => (List.not_mem_nil inside).elim
  have ending : char ∈ spelling.ending → isPlain char = true := by
    rcases spelling.ended with same | same <;> rw [same]
    · exact fun inside => (List.not_mem_nil inside).elim
    · intro inside
      rw [List.mem_singleton.mp inside]
      decide
  simp only [path, List.mem_append, List.mem_cons] at member
  rcases member with (rfl | owner | rfl | name | suffixed) | ended
  · decide
  · exact segment _ spelling.ownerSegment owner
  · decide
  · exact segment _ spelling.nameSegment name
  · exact suffix suffixed
  · exact ending ended

theorem text_plain {char : Char} (member : char ∈ spelling.text) : isPlain char = true := by
  have delimiter : ∀ part, (part = [] ∨ part = ['?']) ∨ (part = [] ∨ part = ['#']) →
      char ∈ part → isPlain char = true := by
    rintro part ((rfl | rfl) | (rfl | rfl)) inside
    · cases inside
    · rw [List.mem_singleton.mp inside]
      decide
    · cases inside
    · rw [List.mem_singleton.mp inside]
      decide
  simp only [text, List.mem_append, List.mem_cons] at member
  rcases member with scheme | rfl | rfl | rfl | host | (path | mark) | hash
  · exact (plain_of_scheme spelling.isHttps scheme).1
  · decide
  · decide
  · decide
  · exact (plain_of_host spelling.isGitHub host).1
  · exact spelling.path_plain path
  · exact delimiter _ (.inl spelling.queried) mark
  · exact delimiter _ (.inr spelling.fragmented) hash

theorem scheme_length : spelling.scheme.length = 5 := by
  have same := congrArg List.length spelling.isHttps
  rwa [List.length_map] at same

theorem host_length : spelling.host.length = 10 := by
  have same := congrArg List.length spelling.isGitHub
  rwa [lowerChars, List.length_map] at same

theorem text_length : spelling.text.length = 20 + spelling.owner.length + spelling.name.length +
    spelling.suffix.length + spelling.ending.length + spelling.mark.length +
    spelling.hash.length := by
  simp only [text, path, List.length_append, List.length_cons, spelling.scheme_length,
    spelling.host_length]
  omega

theorem text_short : spelling.text.length ≤ maxRepositoryUrlLength := by
  have owner := length_of_isSegment spelling.ownerSegment
  have name := length_of_isSegment spelling.nameSegment
  have suffix : spelling.suffix.length ≤ 4 := by
    rcases spelling.suffixed with same | ⟨same, -⟩ <;> rw [same] <;> decide
  have ending : spelling.ending.length ≤ 1 := by
    rcases spelling.ended with same | same <;> rw [same] <;> decide
  have mark : spelling.mark.length ≤ 1 := by
    rcases spelling.queried with same | same <;> rw [same] <;> decide
  have hash : spelling.hash.length ≤ 1 := by
    rcases spelling.fragmented with same | same <;> rw [same] <;> decide
  rw [text_length, maxRepositoryUrlLength]
  omega

theorem readable : ¬ Unreadable spelling.text := by
  rintro (empty | long | blank | ⟨char, member, control⟩ | percent | backslash)
  · have length := spelling.text_length
    rw [empty] at length
    simp only [List.length_nil] at length
    omega
  · exact Nat.not_lt.mpr spelling.text_short long
  · exact blank (strip_of_plain fun _ => spelling.text_plain).symm
  · have plain := spelling.text_plain member
    simp only [isPlain, Bool.and_eq_true, decide_eq_true_eq] at plain
    omega
  · exact absurd (spelling.text_plain percent) (by decide)
  · exact absurd (spelling.text_plain backslash) (by decide)

theorem path_free : '?' ∉ spelling.path ∧ '#' ∉ spelling.path := by
  have suffix : '?' ∉ spelling.suffix ∧ '#' ∉ spelling.suffix := by
    rcases spelling.suffixed with same | ⟨same, -⟩ <;> rw [same] <;> decide
  have ending : '?' ∉ spelling.ending ∧ '#' ∉ spelling.ending := by
    rcases spelling.ended with same | same <;> rw [same] <;> decide
  have owner := (segment_free spelling.ownerSegment).2
  have name := (segment_free spelling.nameSegment).2
  simp [path, suffix, ending, owner, name]

theorem host_nonempty : spelling.host ≠ [] := by
  intro empty
  have length := spelling.host_length
  rw [empty] at length
  cases length

/-- What `urlsplit` makes of a spelling. -/
def parts : SplitResult := ⟨https, spelling.host, spelling.path, [], []⟩

theorem urlsplit_text (library : UrlLibrary) :
    urlsplit library spelling.text = some spelling.parts := by
  obtain ⟨first, printable⟩ := first_of_readable spelling.readable
  have scheme : splitScheme spelling.text = (https, '/' :: '/' :: (spelling.host ++
      (spelling.path ++ spelling.mark ++ spelling.hash))) :=
    splitScheme_https_iff.mpr ⟨spelling.scheme, spelling.isHttps, rfl⟩
  have netloc : splitNetloc ('/' :: '/' :: (spelling.host ++
      (spelling.path ++ spelling.mark ++ spelling.hash))) =
      (spelling.host, spelling.path ++ spelling.mark ++ spelling.hash) := by
    refine (splitNetloc_iff spelling.isGitHub).mpr ⟨rfl, fun char head => ?_⟩
    obtain rfl : '/' = char := Option.some.inj head
    decide
  have tail : splitTail https spelling.host (spelling.path ++ spelling.mark ++ spelling.hash) =
      spelling.parts :=
    splitTail_empty_iff.mpr ⟨spelling.path_free.1, spelling.path_free.2, spelling.mark,
      spelling.hash, spelling.queried, spelling.fragmented, rfl⟩
  have accepted := spelling.host_name.accepted
    (fun char member => isPlain.ascii (plain_of_host spelling.isGitHub member).1) library
  unfold urlsplit
  rw [cleaned_eq first printable]
  dsimp only
  rw [scheme]
  dsimp only
  rw [netloc]
  dsimp only
  rw [accepted, tail]
  rfl

theorem parts_not_foreign : ¬ Foreign spelling.parts := by
  have name := spelling.host_name
  simp [Foreign, parts, name.hostname spelling.host_nonempty, name.userInfo, name.hostInfo,
    spelling.isGitHub]

/-- Every spelling is accepted as the repository it names. -/
theorem parse (library : UrlLibrary) :
    parsePublicRepositoryUrl library spelling.text = some spelling.repository := by
  unfold parsePublicRepositoryUrl
  rw [if_neg spelling.readable, spelling.urlsplit_text library]
  dsimp only
  rw [if_neg spelling.parts_not_foreign]
  exact parsePath_iff.mpr ⟨spelling.ownerSegment, spelling.nameSegment, spelling.suffix,
    spelling.ending, spelling.suffixed, spelling.ended, rfl⟩

end Spelling

/-- Every accepted value is a spelling. -/
theorem spelling_of_parse {library : UrlLibrary} {value : List Char} {parsed : PublicRepositoryUrl}
    (accepted : parsePublicRepositoryUrl library value = some parsed) :
    ∃ spelling : Spelling, spelling.text = value ∧ spelling.repository = parsed := by
  unfold parsePublicRepositoryUrl at accepted
  split at accepted
  · cases accepted
  next readable =>
  split at accepted
  · cases accepted
  next found split =>
  split at accepted
  · cases accepted
  next known =>
  obtain ⟨first, printable⟩ := first_of_readable readable
  unfold urlsplit at split
  rw [cleaned_eq first printable] at split
  cases schemes : splitScheme value with
  | mk scheme afterScheme =>
  cases locations : splitNetloc afterScheme with
  | mk netloc afterNetloc =>
  simp only [schemes, locations] at split
  split at split
  · cases split
  obtain rfl := Option.some.inj split
  simp only [Foreign, not_or, not_not] at known
  obtain ⟨isHttps, -, isGitHub, -, -, -, query, fragment⟩ := known
  obtain rfl : scheme = https := isHttps
  have isGitHub : lowerChars netloc = githubHost := isGitHub
  have tail : splitTail https netloc afterNetloc =
      ⟨https, netloc, (splitTail https netloc afterNetloc).path, [], []⟩ :=
    SplitResult.mk.injEq .. ▸ ⟨rfl, rfl, rfl, query, fragment⟩
  obtain ⟨-, -, mark, hash, marked, hashed, ended⟩ := splitTail_empty_iff.mp tail
  obtain ⟨written, lowered, whole⟩ := splitScheme_https_iff.mp schemes
  obtain ⟨located, -⟩ := (splitNetloc_iff isGitHub).mp locations
  obtain ⟨owner, name⟩ := parsed
  obtain ⟨ownerValid, nameValid, suffix, ending, suffixed, closed, path⟩ :=
    parsePath_iff.mp accepted
  refine ⟨⟨written, netloc, owner, name, suffix, ending, mark, hash, lowered, isGitHub, ownerValid,
    nameValid, suffixed, closed, marked, hashed⟩, ?_, rfl⟩
  rw [whole, located, ended, path]
  rfl

/-! ## The canonical URL -/

theorem canonicalUrl_eq (url : PublicRepositoryUrl) :
    url.canonicalUrl = https ++ ':' :: '/' :: '/' :: (githubHost ++
      '/' :: (url.owner ++ '/' :: url.repository)) := rfl

theorem canonicalUrl_length (url : PublicRepositoryUrl) :
    url.canonicalUrl.length = 20 + url.owner.length + url.repository.length := by
  have scheme : https.length = 5 := rfl
  have host : githubHost.length = 10 := rfl
  rw [canonicalUrl_eq]
  simp only [List.length_append, List.length_cons, scheme, host]
  omega

namespace Spelling

variable (spelling : Spelling)

/-- The spelling without what may be left out, where the name is no other one's
with a suffix. -/
def canonical (plain : ¬ gitSuffix <:+ spelling.name) : Spelling where
  scheme := https
  host := githubHost
  owner := spelling.owner
  name := spelling.name
  suffix := []
  ending := []
  mark := []
  hash := []
  isHttps := by decide
  isGitHub := by decide
  ownerSegment := spelling.ownerSegment
  nameSegment := spelling.nameSegment
  suffixed := .inr ⟨rfl, plain⟩
  ended := .inl rfl
  queried := .inl rfl
  fragmented := .inl rfl

theorem canonical_text (plain : ¬ gitSuffix <:+ spelling.name) :
    (spelling.canonical plain).text = spelling.repository.canonicalUrl := by
  rw [canonicalUrl_eq]
  simp only [canonical, text, path, repository, List.append_nil]

/-- The canonical URL is read back unless its own name ends in the suffix. -/
theorem parse_canonical_iff (library : UrlLibrary) :
    parsePublicRepositoryUrl library spelling.repository.canonicalUrl =
      some spelling.repository ↔ ¬ gitSuffix <:+ spelling.name := by
  constructor
  · intro accepted
    obtain ⟨other, whole, same⟩ := spelling_of_parse accepted
    obtain ⟨owners, names⟩ := PublicRepositoryUrl.mk.inj same
    have length := other.text_length
    rw [whole, canonicalUrl_length, owners, names] at length
    rcases other.suffixed with suffix | ⟨-, plain⟩
    · have long : other.suffix.length = 4 := congrArg List.length suffix
      simp only [repository] at length
      omega
    · rwa [names] at plain
  · intro plain
    rw [← spelling.canonical_text plain]
    exact (spelling.canonical plain).parse library

theorem front_free : ∀ delimiter ∈ ['?', '#'], delimiter ∉ spelling.scheme ∧
    delimiter ∉ spelling.host ∧ delimiter ∉ spelling.path := by
  intro delimiter listed
  refine ⟨fun member => ?_, fun member => ?_, ?_⟩
  · have among : ['?', '#'] ⊆ [':', '/', '?', '#'] := by simp
    exact (plain_of_scheme spelling.isHttps member).2.2.2 (among listed)
  · have among : ['?', '#'] ⊆ ['/', '?', '#', '@', ':', '[', ']', '%'] := by simp
    exact (plain_of_host spelling.isGitHub member).2 (among listed)
  · simp only [List.mem_cons, List.not_mem_nil, or_false] at listed
    rcases listed with rfl | rfl
    · exact spelling.path_free.1
    · exact spelling.path_free.2

/-- Nothing stands after the path of a text without delimiters. -/
theorem bare_iff : spelling.mark = [] ∧ spelling.hash = [] ↔
    '?' ∉ spelling.text ∧ '#' ∉ spelling.text := by
  obtain ⟨schemeMark, hostMark, pathMark⟩ := spelling.front_free '?' (by simp)
  obtain ⟨schemeHash, hostHash, pathHash⟩ := spelling.front_free '#' (by simp)
  have marked : '?' ∈ spelling.text ↔ '?' ∈ spelling.mark ∨ '?' ∈ spelling.hash := by
    simp [text, schemeMark, hostMark, pathMark]
  have hashed : '#' ∈ spelling.text ↔ '#' ∈ spelling.mark ∨ '#' ∈ spelling.hash := by
    simp [text, schemeHash, hostHash, pathHash]
  rw [marked, hashed]
  rcases spelling.queried with mark | mark <;> rcases spelling.fragmented with hash | hash <;>
    simp [mark, hash]

end Spelling

/-! ## Exactness -/

/-- The value is accepted only as the spelling of a repository, as far as it meets
the condition, and the canonical URL is then read back as the same repository. -/
def Exact (library : UrlLibrary) (condition : Spelling → Prop) (value : List Char) : Prop :=
  ∀ parsed, parsePublicRepositoryUrl library value = some parsed →
    (∃ spelling : Spelling, spelling.text = value ∧ spelling.repository = parsed ∧
      condition spelling) ∧
    parsePublicRepositoryUrl library parsed.canonicalUrl = some parsed

/-- Nothing follows the path, not even an empty query or fragment. -/
def Spelling.Bare (spelling : Spelling) : Prop := spelling.mark = [] ∧ spelling.hash = []

theorem exact_iff (library : UrlLibrary) {condition : Spelling → Prop} (value : List Char)
    (determined : ∀ spelling other : Spelling, spelling.text = other.text →
      condition spelling → condition other) :
    Exact library condition value ↔ ∀ spelling : Spelling, spelling.text = value →
      condition spelling ∧ ¬ gitSuffix <:+ spelling.name := by
  constructor
  · rintro exact spelling rfl
    obtain ⟨⟨other, same, -, holds⟩, again⟩ := exact _ (spelling.parse library)
    exact ⟨determined other spelling same holds, (spelling.parse_canonical_iff library).mp again⟩
  · intro regular parsed accepted
    obtain ⟨spelling, whole, rfl⟩ := spelling_of_parse accepted
    obtain ⟨holds, plain⟩ := regular spelling whole
    exact ⟨⟨spelling, whole, rfl, holds⟩, (spelling.parse_canonical_iff library).mpr plain⟩

/-- Parsing is exact and stable for the values that spell no name with a second
suffix and leave no delimiter behind; where an empty query or fragment counts as
none, only the suffix matters. -/
theorem public_urls_exact_iff (library : UrlLibrary) (value : List Char) :
    (Exact library Spelling.Bare value ↔ ∀ spelling : Spelling, spelling.text = value →
      spelling.Bare ∧ ¬ gitSuffix <:+ spelling.name) ∧
    (Exact library (fun _ => True) value ↔ ∀ spelling : Spelling, spelling.text = value →
      ¬ gitSuffix <:+ spelling.name) := by
  constructor
  · refine exact_iff library value fun spelling other same bare => ?_
    refine other.bare_iff.mpr ?_
    rw [← same]
    exact spelling.bare_iff.mp bare
  · have exact := @exact_iff library (fun _ => True) value fun _ _ _ _ => trivial
    simpa using exact

/-- The parser takes one suffix of two, and the other when it reads the canonical
URL. -/
theorem second_suffix_removed :
    parsePublicRepositoryUrl ⟨fun _ => false, id⟩ "https://github.com/o/r.git.git".toList =
        some ⟨"o".toList, "r.git".toList⟩ ∧
      parsePublicRepositoryUrl ⟨fun _ => false, id⟩
        (PublicRepositoryUrl.mk "o".toList "r.git".toList).canonicalUrl =
        some ⟨"o".toList, "r".toList⟩ ∧
      ¬ Exact ⟨fun _ => false, id⟩ (fun _ => True) "https://github.com/o/r.git.git".toList := by
  have first : parsePublicRepositoryUrl ⟨fun _ => false, id⟩
      "https://github.com/o/r.git.git".toList = some ⟨"o".toList, "r.git".toList⟩ := by
    decide +kernel
  have second : parsePublicRepositoryUrl ⟨fun _ => false, id⟩
      (PublicRepositoryUrl.mk "o".toList "r.git".toList).canonicalUrl =
      some ⟨"o".toList, "r".toList⟩ := by
    decide +kernel
  refine ⟨first, second, fun exact => ?_⟩
  have again := (exact _ first).2
  rw [second] at again
  exact absurd again (by decide)

end Codenaut.GitHub
