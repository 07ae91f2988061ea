import OpenExec.WriteContainment

/-!
# The policy on sensitive files and the file that is opened

`isDenied` reads the given string: a `.git` name or a cloud credentials directory counts
where a slash stands before it, a sensitive file name where it is the base name.
-/

namespace OpenExec.PathValidation

open LinkedTrees GoStrings SeparatedText List

variable {tree next : FileTree} {workingDir place : Place} {path : List Char} {name : Name}
  {names : List Name}

def isSensitiveName (name : Name) : Bool :=
  sensitiveFiles.any (contains (name.map toLower)) ||
    (hasSuffix (name.map toLower) ".pem" || hasSuffix (name.map toLower) ".key" ||
      hasSuffix (name.map toLower) ".p12")

def isGitName (name : Name) : Bool := name.map toLower = ".git".toList

def isCloudName (name : Name) : Bool :=
  name.map toLower = ".aws".toList ∨ name.map toLower = ".gcp".toList ∨
    name.map toLower = ".azure".toList

def slashedNames (path : List Char) : List Name := (path.splitOn '/').tail

theorem toLower_eq_slash (c : Char) : toLower c = '/' ↔ c = '/' := by
  unfold toLower
  split
  · next kelvin => simp [kelvin]
  split
  · next dotted => simp [dotted]
  constructor
  · intro lowered
    unfold Char.toLower at lowered
    split at lowered
    · next upper =>
      have value : (c.val + ('a'.val - 'A'.val)).toNat = 47 := congrArg Char.toNat lowered
      have least : 65 ≤ c.val.toNat := UInt32.le_iff_toNat_le.mp upper.1
      have most : c.val.toNat ≤ 90 := UInt32.le_iff_toNat_le.mp upper.2
      rw [UInt32.toNat_add] at value
      have distance : ('a'.val - 'A'.val).toNat = 32 := rfl
      omega
    · exact lowered
  · rintro rfl
    rfl

theorem slashedNames_lower (path : List Char) :
    ((path.map toLower).splitOn '/').tail = (slashedNames path).map (List.map toLower) := by
  rw [splitOn_map toLower_eq_slash, slashedNames, map_tail]

theorem contains_lower_iff {pattern : String} (isPattern : pattern.toList = '/' :: name ++ ['/'])
    (slashless : '/' ∉ name) : contains (path.map toLower) pattern = true ↔
      ∃ spelled ∈ (slashedNames path).dropLast, spelled.map toLower = name := by
  rw [contains_iff, isPattern, infix_iff slashless, slashedNames_lower, ← map_dropLast, mem_map]

theorem hasSuffix_lower_iff {pattern : String} (isPattern : pattern.toList = '/' :: name)
    (slashless : '/' ∉ name) : hasSuffix (path.map toLower) pattern = true ↔
      ∃ spelled, (slashedNames path).getLast? = some spelled ∧ spelled.map toLower = name := by
  rw [hasSuffix_iff, isPattern, suffix_iff slashless, slashedNames_lower, getLast?_map,
    Option.map_eq_some_iff]

theorem exists_mem_iff_dropLast {holds : Name → Prop} : (∃ name ∈ names, holds name) ↔
      (∃ name ∈ names.dropLast, holds name) ∨ ∃ name, names.getLast? = some name ∧ holds name := by
  rcases eq_nil_or_concat names with rfl | ⟨front, last, rfl⟩
  · simp
  · simp [or_and_right, exists_or]

theorem gitRule_iff :
    (contains (path.map toLower) "/.git/" || hasSuffix (path.map toLower) "/.git") = true ↔
      ∃ name ∈ slashedNames path, isGitName name := by
  rw [Bool.or_eq_true, exists_mem_iff_dropLast,
    @contains_lower_iff path ".git".toList "/.git/" rfl (by simp),
    @hasSuffix_lower_iff path ".git".toList "/.git" rfl (by simp)]
  simp only [isGitName, decide_eq_true_eq]

theorem cloudRule_iff :
    (contains (path.map toLower) "/.aws/" || contains (path.map toLower) "/.gcp/" ||
        contains (path.map toLower) "/.azure/") = true ↔
      ∃ name ∈ (slashedNames path).dropLast, isCloudName name := by
  rw [Bool.or_eq_true, Bool.or_eq_true,
    @contains_lower_iff path ".aws".toList "/.aws/" rfl (by simp),
    @contains_lower_iff path ".gcp".toList "/.gcp/" rfl (by simp),
    @contains_lower_iff path ".azure".toList "/.azure/" rfl (by simp)]
  simp only [isCloudName, decide_eq_true_eq, and_or_left, exists_or, or_assoc]

theorem isDenied_iff : isDenied path = true ↔ isSensitiveName (base path) = true ∨
    (∃ name ∈ slashedNames path, isGitName name) ∨ ∃ name ∈ (slashedNames path).dropLast,
    isCloudName name := by
  rw [← gitRule_iff, ← cloudRule_iff, ← Bool.or_eq_true, ← Bool.or_eq_true, isSensitiveName,
    ← Bool.or_assoc]
  rfl

theorem getLast?_filter {names : List Name} {kept : Name → Bool} (last : names.getLast? = some name)
    (isKept : kept name) : (names.filter kept).getLast? = some name := by
  obtain ⟨front, rfl⟩ := getLast?_eq_some_iff.mp last
  simp [filter_append, isKept]

theorem base_eq (nonempty : path ≠ []) :
    base path = ((path.splitOn '/').filter (· ≠ [])).getLast?.getD ['/'] := by
  induction path using reverseRecOn with
  | nil => exact absurd rfl nonempty
  | append_singleton front c ih =>
    by_cases slash : c = '/'
    · subst slash
      rw [splitOn_append_cons_self, filter_append]
      by_cases empty : front = []
      · subst empty
        rfl
      · have shorter := ih empty
        unfold base at shorter ⊢
        rw [if_neg empty] at shorter
        simpa using shorter
    · have last := @getLast?_splitOn _ '/' (front ++ [c]) _
      have named : (takeWhile (· ≠ '/') (front ++ [c]).reverse).reverse ≠ [] := by
        simp [slash]
      rw [getLast?_filter last (by simpa using named)]
      unfold base
      simp [slash]

theorem splitOn_absolutePath (proper : Proper place) (nonempty : place ≠ []) :
    (absolutePath place).splitOn '/' = [] :: place := by
  have joined : absolutePath place = ['/'].intercalate ([] :: place) := by
    rw [absolutePath, if_neg nonempty, intercalate_cons, nil_append]
  rw [joined]
  apply splitOn_intercalate
  · intro name isName
    rcases mem_cons.mp isName with rfl | inPlace
    · simp
    · exact (proper name inPlace).2
  · simp

theorem base_absolutePath (proper : Proper place) (last : place.getLast? = some name) :
    base (absolutePath place) = name := by
  have nonempty : place ≠ [] := by
    rintro rfl
    simp at last
  have named : place.filter (· ≠ []) = place := by
    rw [filter_eq_self]
    intro other inPlace
    have entry := (proper other inPlace).1.1
    simp only [isDot, Bool.or_eq_false_iff, beq_eq_false_iff_ne] at entry
    simpa using entry.1
  have slashed : absolutePath place ≠ [] := by
    intro empty
    have cut := splitOn_absolutePath proper nonempty
    rw [empty] at cut
    simp at cut
    exact nonempty cut
  rw [base_eq slashed, splitOn_absolutePath proper nonempty, filter_cons_of_neg (by simp),
    named, last]
  rfl

theorem isDenied_absolutePath (proper : Proper place) : isDenied (absolutePath place) = true ↔
    (∃ name, place.getLast? = some name ∧ isSensitiveName name) ∨ (∃ name ∈ place, isGitName name) ∨
    ∃ name ∈ place.dropLast, isCloudName name := by
  cases last : place.getLast? with
  | none =>
    obtain rfl := getLast?_eq_none_iff.mp last
    simp [show isDenied (absolutePath []) = false by decide +kernel]
  | some name =>
    have nonempty : place ≠ [] := by
      rintro rfl
      simp at last
    rw [isDenied_iff, base_absolutePath proper last, slashedNames,
      splitOn_absolutePath proper nonempty]
    simp

theorem mem_of_mem_foldl_cleanStep {rooted : Bool} {stack : List Name}
    (isName : name ∈ names.foldl (cleanStep rooted) stack) : name ∈ stack ∨ name ∈ names := by
  induction names generalizing stack with
  | nil => exact .inl isName
  | cons next names ih =>
    rcases ih isName with inStack | later
    · unfold cleanStep at inStack
      split at inStack
      · exact .inl inStack
      split at inStack
      · split at inStack
        · split at inStack
          · cases inStack
          · exact .inr (by simp [mem_singleton.mp inStack])
        · split at inStack
          · rcases mem_cons.mp inStack with rfl | earlier
            · exact .inr mem_cons_self
            · exact .inl earlier
          · exact .inl (mem_cons_of_mem _ inStack)
      · rcases mem_cons.mp inStack with rfl | earlier
        · exact .inr mem_cons_self
        · exact .inl earlier
    · exact .inr (mem_cons_of_mem _ later)

theorem mem_of_mem_cleanNames {rooted : Bool}
    (isName : name ∈ cleanNames rooted names) : name ∈ names := by
  rcases mem_of_mem_foldl_cleanStep (mem_reverse.mp isName) with none | isGiven
  · cases none
  · exact isGiven

theorem abs_slashless (slashless : ∀ name ∈ workingDir, '/' ∉ name) :
    ∀ name ∈ abs workingDir (clean path), '/' ∉ name := by
  intro name isName
  unfold abs clean at isName
  split at isName
  · exact not_mem_of_mem_splitOn (mem_of_mem_cleanNames isName)
  · rcases mem_append.mp (mem_of_mem_cleanNames isName) with working | given
    · exact slashless name working
    · exact not_mem_of_mem_splitOn (mem_of_mem_cleanNames given)

inductive OpensFile (tree : FileTree) (workingDir : Place) (roots : List (List Char))
    (path : List Char) (place : Place) : Prop
  | read {validPath : Place}
      (accepted : validatePathForRead tree workingDir path roots = .ok validPath)
      (opened : walk tree false systemLinkLimit [] validPath = some place)
  | write {validPath : Place} {createDirectories : Bool} {next : FileTree}
      (accepted : validatePathForWrite tree workingDir path roots = .ok validPath)
      (prepares : prepareParent tree validPath createDirectories = some next)
      (opened : openForWrite next validPath = some place)

structure AddsNothingSensitive (path : List Char) (place : Place) : Prop where
  git : ∀ name ∈ place, name ∉ slashedNames path → isGitName name = false
  cloud : ∀ name ∈ place.dropLast, name ∉ (slashedNames path).dropLast → isCloudName name = false
  file : ∀ name, place.getLast? = some name → name ≠ base path → isSensitiveName name = false

def Unlinked (tree : FileTree) (path : Place) : Prop :=
  ∀ front, front <+: path → ∀ target, tree.kind front ≠ some (.link target)

theorem Unlinked.grown {path : Place} (unlinked : Unlinked tree path) (grown : Grown tree next) :
    Unlinked next path := fun front isFront target found =>
  unlinked front isFront target (grown.onlyDirs found (by simp))

theorem Unlinked.place_eq {path : Place} {create : Bool} {links : Nat}
    (unlinked : Unlinked tree path) (entries : ∀ name ∈ path, IsEntry name)
    (reached : walk tree create links [] path = some place) : place = path :=
  walk_unlinked entries (fun front isFront target => by simpa using unlinked front isFront target)
    reached

theorem Grown.sameLinks (grown : Grown tree next) : SameLinks tree next where
  kept := fun isLink => grown.extends_ _ _ isLink
  noNew := fun isLink => grown.onlyDirs isLink (by simp)

theorem composed_of_grown (grown : Grown tree next) (composed : Composed next [] names place)
    (notDir : next.kind place ≠ some .dir) : Composed tree [] names place := by
  have met : ∀ {name}, MeetsName next [] names name → MeetsName tree [] names name :=
    fun ⟨target, meets, isName⟩ => ⟨target, meets.of_sameLinks grown.sameLinks, isName⟩
  refine ⟨fun name isName => ?_, fun name isName => ?_, fun _ name isLast => ?_⟩
  · exact (composed.names name isName).imp_right (.imp_right met)
  · exact (composed.inner name isName).imp_right (.imp_right met)
  · exact (composed.last notDir name isLast).imp_right met

theorem validate_ok {config : PathValidatorConfig} {validPath : Place}
    (accepted : validate tree workingDir config path = .ok validPath) :
    isDenied path = false ∧
      (validPath = abs workingDir (clean path) ∨
        evalSymlinks tree (abs workingDir (clean path)) = some validPath) := by
  unfold validate at accepted
  iterate 3
    split at accepted
    · cases accepted
  next allowed =>
  refine ⟨by simpa using allowed, ?_⟩
  iterate 3
    split at accepted
    · cases accepted
  split at accepted
  · unfold checkExisting at accepted
    split at accepted
    · cases accepted
    · split at accepted
      · cases accepted
      split at accepted
      · cases accepted
      next realPath evaluated =>
      iterate 3
        split at accepted
        · cases accepted
      · cases accepted
        exact .inr evaluated
    · split at accepted
      · cases accepted
      · exact .inl (Except.ok.inj accepted).symm
  · exact .inl (Except.ok.inj accepted).symm

theorem OpensFile.spec {roots : List (List Char)}
    (opens : OpensFile tree workingDir roots path place)
    (slashless : ∀ name ∈ workingDir, '/' ∉ name) :
    isDenied path = false ∧ Proper place ∧
      (Unlinked tree (abs workingDir (clean path)) → place = abs workingDir (clean path)) ∧
      Composed tree [] (abs workingDir (clean path)) place := by
  have rootProper : Proper [] := fun _ isName => absurd isName (by simp)
  have entries := @isEntry_abs workingDir path
  cases opens with
  | @read validPath accepted opened =>
    obtain ⟨allowed, given | resolved⟩ := validate_ok accepted
    · subst given
      exact ⟨allowed, walk_proper rootProper (abs_slashless slashless) opened,
        fun unlinked => unlinked.place_eq entries opened, walk_composed tree.root opened⟩
    · have proper := walk_proper rootProper (abs_slashless slashless) resolved
      -- the accepted path has its links resolved, and is opened as it stands
      rw [walk_reached (fun name isName => (proper name isName).1) resolved] at opened
      cases opened
      exact ⟨allowed, proper, fun unlinked => unlinked.place_eq entries resolved,
        walk_composed tree.root resolved⟩
  | @write validPath createDirectories next accepted prepares opened =>
    obtain ⟨allowed, _⟩ := validate_ok accepted
    obtain ⟨rfl, _⟩ := validate_spec accepted
    obtain ⟨reached, notDir⟩ := walk_of_openForWrite opened
    have grown := (prepared_of_prepareParent entries prepares).grown
    exact ⟨allowed, walk_proper rootProper (abs_slashless slashless) reached,
      fun unlinked => (unlinked.grown grown).place_eq entries reached,
      composed_of_grown grown (walk_composed next.root reached) notDir⟩

theorem isDenied_iff_adds (allowed : isDenied path = false) (proper : Proper place) :
    isDenied (absolutePath place) = false ↔ AddsNothingSensitive path place := by
  have shown := mt isDenied_iff.mpr (Bool.not_eq_true _ ▸ allowed)
  simp only [not_or, not_exists, not_and] at shown
  obtain ⟨sensitive, git, cloud⟩ := shown
  rw [← Bool.not_eq_true, isDenied_absolutePath proper]
  simp only [not_or, not_exists, not_and]
  constructor
  · rintro ⟨noFile, noGit, noCloud⟩
    exact ⟨fun name inPlace _ => by simpa using noGit name inPlace,
      fun name inPlace _ => by simpa using noCloud name inPlace,
      fun name last _ => by simpa using noFile name last⟩
  · rintro adds
    refine ⟨?_, ?_, ?_⟩
    · intro name last
      by_cases isBase : name = base path
      · exact isBase ▸ sensitive
      · simpa using adds.file name last isBase
    · intro name inPlace
      by_cases spelled : name ∈ slashedNames path
      · exact git name spelled
      · simpa using adds.git name inPlace spelled
    · intro name inPlace
      by_cases spelled : name ∈ (slashedNames path).dropLast
      · exact cloud name spelled
      · simpa using adds.cloud name inPlace spelled

/-- A name that the policy has nothing against, wherever it stands in a path. -/
def Harmless (name : Name) : Prop :=
  isGitName name = false ∧ isCloudName name = false ∧ isSensitiveName name = false

theorem AddsNothingSensitive.composed (adds : AddsNothingSensitive path names)
    (composed : Composed tree [] names place) (notDir : tree.kind place ≠ some .dir)
    (harmless : ∀ name, MeetsName tree [] names name → Harmless name) :
    AddsNothingSensitive path place where
  git := by
    intro name inPlace hidden
    rcases composed.names name inPlace with none | given | met
    · cases none
    · exact adds.git name given hidden
    · exact (harmless name met).1
  cloud := by
    intro name inPlace hidden
    rcases composed.inner name inPlace with none | given | met
    · cases none
    · exact adds.cloud name given hidden
    · exact (harmless name met).2.1
  file := by
    intro name isLast other
    rcases composed.last notDir name isLast with given | met
    · exact adds.file name given other
    · exact (harmless name met).2.2

def repositoryTree : FileTree :=
  .ofEntries
    [([], .dir), (["work".toList], .dir), (["work".toList, ".git".toList], .dir),
      (["work".toList, ".git".toList, "config".toList], .file),
      (["work".toList, "main.go".toList], .file),
      (["work".toList, "latest".toList], .link "main.go".toList)]
    (by decide) (by decide)

theorem repositoryTree_unlinked : Unlinked repositoryTree ["work".toList, "main.go".toList] := by
  have kinds : ∀ front ∈ ["work".toList, "main.go".toList].inits,
      repositoryTree.kind front = some .dir ∨ repositoryTree.kind front = some .file := by
    decide +kernel
  intro front isFront target
  rcases kinds front ((mem_inits _ _).mpr isFront) with isDir | isFile
  · simp [isDir]
  · simp [isFile]

theorem repositoryTree_meets {name : Name}
    (met : MeetsName repositoryTree [] ["work".toList, "latest".toList] name) :
    name = "main.go".toList := by
  obtain ⟨target, met, isName⟩ := met
  obtain ⟨isDir, isLink, isFile⟩ : repositoryTree.kind ["work".toList] = some .dir ∧
      repositoryTree.kind ["work".toList, "latest".toList] = some (.link "main.go".toList) ∧
      repositoryTree.kind ["work".toList, "main.go".toList] = some .file := by
    decide +kernel
  have names : targetNames "main.go".toList = ["main.go".toList] := by decide +kernel
  have entered := (meets_pass ⟨rfl, rfl⟩
    fun _ other => absurd (isDir.symm.trans other) (by simp)).mp met
  rcases (meets_link ⟨rfl, rfl⟩ isLink (by simp)).mp entered with rfl | beyond
  · rw [names] at isName
    exact mem_singleton.mp isName
  · rw [names, targetStart, if_neg (by decide +kernel)] at beyond
    exact nomatch (meets_pass ⟨rfl, rfl⟩
      fun _ other => absurd (isFile.symm.trans other) (by simp)).mp beyond

end OpenExec.PathValidation
