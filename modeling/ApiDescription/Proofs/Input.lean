import Mathlib.Tactic.Choose
import Mathlib.Data.List.Basic
import Mathlib.Data.String.Basic
import ApiDescription.Input
import ApiDescription.Proofs.OrderedMap

/-!
# Several files, each on its own

A batch has one entry for each path, in the order of first mention. What an entry says depends
on the file tree and on its own path only, not on the paths around it.

An error is an entry like any other. A breakdown is not: the first path whose reading breaks
down ends the whole batch, and the entries before it are lost.
-/

namespace ApiDescription

/-- Looking for a file breaks down if its path cannot be looked up, unless the error with which
that is refused means that nothing is there. -/
theorem FileTree.find_eq_error_iff {tree : FileTree} {path : Path} {cause : Breakdown} :
    tree.find path = .error cause ↔
      ∃ error, tree.locate path = .refused error ∧ error.meansAbsent = false ∧
        cause = .notLookedUp error := by
  unfold find
  cases tree.locate path with
  | refused error =>
    by_cases absent : error.meansAbsent = true
    · simp [absent]
    · simpa [absent] using ⟨Eq.symm, Eq.symm⟩
  | _ => simp

/-- A name without a slash that is not the name of a directory itself is a path of one
component. -/
theorem Path.ofString_name {letters : List Char} (bare : '/' ∉ letters) (nonempty : letters ≠ [])
    (proper : letters ≠ ['.']) :
    Path.ofString (String.ofList letters) = ⟨0, [String.ofList letters]⟩ := by
  have noSlash : letters.takeWhile (· = '/') = [] := by
    obtain ⟨first, rest, rfl⟩ := List.exists_cons_of_ne_nil nonempty
    rw [List.takeWhile_cons_of_neg]
    simpa using Ne.symm (List.ne_of_not_mem_cons bare)
  have whole : Text.splitOn '/' letters = [letters] := by
    rw [Text.splitOn_eq, List.splitOn_eq_singleton bare]
  have kept : String.ofList letters ≠ "" ∧ String.ofList letters ≠ "." :=
    ⟨fun isEmpty => nonempty (by simpa using congrArg String.toList isEmpty),
      fun isDot => proper (by simpa using congrArg String.toList isDot)⟩
  simp [Path.ofString, Text.splitString, noSlash, whole, kept]

/-- A name that is too long cannot be looked up. -/
theorem FileTree.locate_name {name : String} {tree : FileTree} (nameable : '\x00' ∉ name.toList)
    (long : maxNameSize < name.utf8ByteSize) (searchable : tree.fault? .search tree.home = none) :
    tree.locate ⟨0, [name]⟩ = .refused .nameTooLong := by
  have isName : name ≠ ".." := by
    rintro rfl
    exact absurd long (by decide)
  unfold locate
  split
  · next unnameable => simp [Path.isNameable, nameable] at unnameable
  · split
    · rfl
    · simp [followHome, follow, searchable, isName, long]

namespace Document

/-- Why reading a file breaks down. Its path cannot be looked up, because a name or the whole
path is too long or a directory cannot be searched; or the file is a dump on which the reader of
JSON breaks down. -/
inductive BreaksDown (tree : FileTree) (path : Path) : Breakdown → Prop where
  | lookup {error : OsError} (refused : tree.locate path = .refused error)
    (present : error.meansAbsent = false) : BreaksDown tree path (.notLookedUp error)
  | dump {cause : Breakdown} {bytes : List UInt8} {text : List Char}
    (found : tree.find path = .ok (.bytes bytes)) (decoded : Utf8.decode bytes = .ok text)
    (isDump : path.suffix.toLower = dumpSuffix)
    (breaks : Json.read (Text.withLineFeeds text) = .error (.broken cause)) :
    BreaksDown tree path cause

variable {tree : FileTree} {path : Path} {cause : Breakdown}

/-- Reading a text breaks down if the text is a dump on which the reader of JSON does. -/
theorem result_ofText_eq_broken_iff {text : List Char} :
    (ofText path text).result = .error (.broken cause) ↔
      path.suffix.toLower = dumpSuffix ∧ Json.read text = .error (.broken cause) := by
  unfold ofText
  split
  · next isDump =>
    match Json.read text with
    | .error (.reported fault) => simp
    | .error (.broken cause) => simp [isDump]
    | .ok json =>
      cases result : (ofDump json (some path)).result <;>
        simp [reporting, result, Except.mapError]
  · next noDump =>
    cases result : (ofSource ⟨path, text⟩).result <;>
      simp [reporting, result, Except.mapError, noDump]

/-- Reading a file breaks down for no other reason. -/
theorem result_ofFile_eq_broken_iff :
    (ofFile tree path).result = .error (.broken cause) ↔ BreaksDown tree path cause := by
  constructor
  · intro broken
    unfold ofFile at broken
    match found : tree.find path with
    | .error other =>
      obtain ⟨error, refused, present, rfl⟩ := FileTree.find_eq_error_iff.mp found
      simp only [found, Except.error.injEq, Failure.broken.injEq] at broken
      exact broken ▸ .lookup refused present
    | .ok .nothing | .ok (.unreadable _) => simp [found] at broken
    | .ok (.bytes bytes) =>
      match decoded : Utf8.decode bytes with
      | .error fault => simp [found, decoded] at broken
      | .ok text =>
        simp only [found, decoded, result_ofText_eq_broken_iff] at broken
        exact .dump found decoded broken.1 broken.2
  · rintro (⟨refused, present⟩ | ⟨found, decoded, isDump, breaks⟩)
    · have broken := FileTree.find_eq_error_iff.mpr ⟨_, refused, present, rfl⟩
      simp only [ofFile, broken]
    · simp only [ofFile, found, decoded, result_ofText_eq_broken_iff.mpr ⟨isDump, breaks⟩]

end Document

namespace Batch

/-- What the file of a path gives without any other: the normal form of its document, or the
error in it. -/
def alone (tree : FileTree) (path : Path) : Except Breakdown (Except InputError Spec) :=
  match (Document.ofFile tree path).result with
  | .ok document => .ok (.ok (Spec.ofDocument document))
  | .error (.reported error) => .ok (.error error)
  | .error (.broken cause) => .error cause

/-- What is logged about the file of a path: how it was read, and that it is passed over if
there is an error in it. -/
def logAlone (tree : FileTree) (path : Path) : List LogRecord :=
  (Spec.ofFile tree path).log ++
    match (Document.ofFile tree path).result with
    | .error (.reported error) => [skipped path error]
    | _ => []

variable {tree : FileTree} {path : Path} {paths : List Path} {results : Batch}
  {entry : Path → Except InputError Spec}

/-- A file gives nothing if reading it breaks down. -/
theorem alone_eq_error_iff {cause : Breakdown} :
    alone tree path = .error cause ↔ Document.BreaksDown tree path cause := by
  rw [← Document.result_ofFile_eq_broken_iff, alone]
  split <;> simp [*]

/-- A file gives something if reading it does not break down. -/
theorem exists_alone_iff :
    (∃ result, alone tree path = .ok result) ↔ ∀ cause, ¬Document.BreaksDown tree path cause := by
  simp only [← alone_eq_error_iff]
  cases alone tree path <;> simp

/-- Entering a result is writing it into the list of results. -/
theorem enter_eq_write (path : Path) (result : Except InputError Spec) (results : Batch) :
    enter path result results = OrderedMap.write path result results := by
  induction results with
  | nil => rfl
  | cons first rest inductionHypothesis =>
    rw [enter, OrderedMap.write, inductionHypothesis]

/-- A file that can be read enters what it gives alone. -/
theorem step_of_alone {result : Except InputError Spec} {log : List LogRecord}
    (gives : alone tree path = .ok result) :
    step tree ⟨.ok results, log⟩ path =
      ⟨.ok (enter path result results), log ++ logAlone tree path⟩ := by
  unfold alone at gives
  unfold step logAlone Spec.ofFile
  split at gives
  · next document read =>
    obtain rfl := Except.ok.inj gives
    simp only [read, List.append_nil]
  · next error read =>
    obtain rfl := Except.ok.inj gives
    simp only [read, List.append_assoc]
  · cases gives

/-- A breakdown of one file is one of the whole batch. -/
theorem result_step_of_broken {cause : Breakdown} {log : List LogRecord}
    (breaks : alone tree path = .error cause) :
    (step tree ⟨.ok results, log⟩ path).result = .error cause := by
  unfold alone at breaks
  unfold step Spec.ofFile
  split at breaks
  · cases breaks
  · cases breaks
  · next cause' read =>
    obtain rfl := Except.error.inj breaks
    simp only [read]

/-- Nothing is read behind a breakdown. -/
theorem foldl_step_of_error {batch : Logged (Except Breakdown Batch)} {cause : Breakdown}
    (broken : batch.result = .error cause) (paths : List Path) :
    paths.foldl (step tree) batch = batch := by
  induction paths with
  | nil => rfl
  | cons path paths inductionHypothesis =>
    have stays : step tree batch path = batch := by rw [step, broken]
    rw [List.foldl_cons, stays, inductionHypothesis]

/-- Files that can be read enter what each gives alone, one after the other. -/
theorem foldl_step_of_alone {log : List LogRecord}
    (gives : ∀ path ∈ paths, alone tree path = .ok (entry path)) :
    paths.foldl (step tree) ⟨.ok results, log⟩ =
      ⟨.ok (paths.foldl (fun results path => enter path (entry path) results) results),
        log ++ paths.flatMap (logAlone tree)⟩ := by
  induction paths generalizing results log with
  | nil => simp
  | cons path paths inductionHypothesis =>
    rw [List.forall_mem_cons] at gives
    rw [List.foldl_cons, step_of_alone gives.1, inductionHypothesis gives.2, List.foldl_cons,
      List.flatMap_cons, List.append_assoc]

/-- A path that was seen keeps its entry. -/
theorem enter_of_mem {seen : List Path} (isSeen : path ∈ seen) :
    enter path (entry path) (seen.map fun path => (path, entry path)) =
      seen.map fun path => (path, entry path) := by
  induction seen with
  | nil => cases isSeen
  | cons first seen inductionHypothesis =>
    rw [List.map_cons, enter]
    split
    · next same => rw [same]
    · next other =>
      rw [inductionHypothesis ((List.mem_cons.mp isSeen).resolve_left (Ne.symm other))]

/-- A path that was not seen gets the last entry. -/
theorem enter_of_not_mem {seen : List Path} (fresh : path ∉ seen) :
    enter path (entry path) (seen.map fun path => (path, entry path)) =
      (seen ++ [path]).map fun path => (path, entry path) := by
  have keys : (seen.map fun path => (path, entry path)).map Prod.fst = seen := by
    rw [List.map_map]
    exact List.map_id seen
  rw [enter_eq_write, OrderedMap.write_of_not_mem (by rwa [keys]), List.map_append]
  rfl

/-- Behind the entries of the paths seen so far, more paths add an entry for each that was not
seen, once. -/
theorem foldl_enter (entry : Path → Except InputError Spec) (seen paths : List Path) :
    paths.foldl (fun results path => enter path (entry path) results)
        (seen.map fun path => (path, entry path)) =
      (seen ++ (paths.removeAll seen).eraseDups).map fun path => (path, entry path) := by
  induction paths generalizing seen with
  | nil => simp [List.removeAll]
  | cons path paths inductionHypothesis =>
    rw [List.foldl_cons]
    by_cases isSeen : path ∈ seen
    · have skipped : (path :: paths).removeAll seen = paths.removeAll seen := by
        simp [List.removeAll, isSeen]
      rw [enter_of_mem isSeen, inductionHypothesis, skipped]
    · have kept : (path :: paths).removeAll seen = path :: paths.removeAll seen := by
        simp [List.removeAll, isSeen]
      have further : (paths.removeAll seen).filter (fun other => !other == path) =
          paths.removeAll (seen ++ [path]) := by
        rw [List.removeAll, List.removeAll, List.filter_filter]
        exact List.filter_congr fun other _ => by
          simp [Bool.and_comm, Bool.beq_eq_decide_eq]
      rw [enter_of_not_mem isSeen, inductionHypothesis, kept, List.eraseDups_cons, further,
        List.append_assoc, List.singleton_append]

/-- A batch of files that can all be read has one entry for each path, in the order of first
mention, and each is what the file gives alone. -/
theorem ofFiles_of_alone (gives : ∀ path ∈ paths, alone tree path = .ok (entry path)) :
    ofFiles tree paths =
      ⟨.ok (paths.eraseDups.map fun path => (path, entry path)),
        paths.flatMap (logAlone tree)⟩ := by
  have entered := foldl_enter entry [] paths
  have all : paths.removeAll [] = paths := by simp [List.removeAll]
  rw [List.map_nil, List.nil_append, all] at entered
  rw [ofFiles, foldl_step_of_alone gives, entered, List.nil_append]

/-- The first file whose reading breaks down ends the batch. -/
theorem result_ofFiles_of_broken {before after : List Path} {cause : Breakdown}
    (gives : ∀ earlier ∈ before, alone tree earlier = .ok (entry earlier))
    (breaks : alone tree path = .error cause) :
    (ofFiles tree (before ++ path :: after)).result = .error cause := by
  rw [ofFiles, List.foldl_append, foldl_step_of_alone gives, List.foldl_cons,
    foldl_step_of_error (result_step_of_broken breaks), result_step_of_broken breaks]

/-- Either all files can be read, or there is a first one that breaks down. -/
theorem reads_or_broken (tree : FileTree) (paths : List Path) :
    (∀ path ∈ paths, ∃ result, alone tree path = .ok result) ∨
      ∃ before path after cause, paths = before ++ path :: after ∧
        (∀ earlier ∈ before, ∃ result, alone tree earlier = .ok result) ∧
        alone tree path = .error cause := by
  induction paths with
  | nil => exact .inl (by simp)
  | cons path paths inductionHypothesis =>
    match given : alone tree path with
    | .error cause => exact .inr ⟨[], path, paths, cause, rfl, by simp, given⟩
    | .ok result =>
      rcases inductionHypothesis with reads | ⟨before, later, after, cause, rfl, reads, breaks⟩
      · exact .inl (List.forall_mem_cons.mpr ⟨⟨result, given⟩, reads⟩)
      · exact .inr ⟨path :: before, later, after, cause, rfl,
          List.forall_mem_cons.mpr ⟨⟨result, given⟩, reads⟩, breaks⟩

/-- Every path of a batch that came to its end could be read, and its entry is what it gives
alone. -/
theorem exists_entry {batch : Batch} (ended : (ofFiles tree paths).result = .ok batch) :
    ∀ path ∈ paths, ∃ result, alone tree path = .ok result ∧ batch.lookup path = some result := by
  rcases reads_or_broken tree paths with reads | ⟨before, path, after, cause, rfl, reads, breaks⟩
  · choose! entry gives using reads
    rw [ofFiles_of_alone gives] at ended
    obtain rfl := Except.ok.inj ended
    exact fun path isPath => ⟨entry path, gives path isPath,
      List.lookup_graph entry (List.mem_eraseDups.mpr isPath)⟩
  · choose! entry gives using reads
    rw [result_ofFiles_of_broken gives breaks] at ended
    cases ended

/-- A batch in which no reading breaks down has one entry for each path in the order of first
mention, and the entry is what the file gives alone. The first path whose reading breaks down
ends the batch instead. A path has the same entry in every batch that mentions it. -/
theorem ofFiles_spellings (tree : FileTree) (spellings : List String) :
    let paths := spellings.map Path.ofString
    ((∀ path ∈ paths, ∀ cause, ¬Document.BreaksDown tree path cause) →
      ∃ batch, ofFiles tree paths = ⟨.ok batch, paths.flatMap (logAlone tree)⟩ ∧
        batch.map Prod.fst = paths.eraseDups ∧
        ∀ path ∈ paths, ∃ result, alone tree path = .ok result ∧
          batch.lookup path = some result) ∧
    (∀ before path after cause, paths = before ++ path :: after →
      (∀ earlier ∈ before, ∀ cause, ¬Document.BreaksDown tree earlier cause) →
      Document.BreaksDown tree path cause → (ofFiles tree paths).result = .error cause) ∧
    ∀ (others : List String) batch another, (ofFiles tree paths).result = .ok batch →
      (ofFiles tree (others.map Path.ofString)).result = .ok another →
      ∀ path ∈ paths, path ∈ others.map Path.ofString →
        another.lookup path = batch.lookup path := by
  intro paths
  refine ⟨fun reads => ?_, fun before path after cause split reads breaks => ?_,
    fun others batch another ended endedOther path isPath isOther => ?_⟩
  · have given := fun path isPath => exists_alone_iff.mpr (reads path isPath)
    choose! entry gives using given
    have ended := ofFiles_of_alone gives
    have keys : (paths.eraseDups.map fun path => (path, entry path)).map Prod.fst =
        paths.eraseDups := by
      rw [List.map_map]
      exact List.map_id _
    exact ⟨_, ended, keys, exists_entry (congrArg Logged.result ended)⟩
  · have given := fun path isEarlier => exists_alone_iff.mpr (reads path isEarlier)
    choose! entry gives using given
    rw [split, result_ofFiles_of_broken gives (alone_eq_error_iff.mpr breaks)]
  · obtain ⟨result, given, found⟩ := exists_entry ended path isPath
    obtain ⟨resultOther, givenOther, foundOther⟩ := exists_entry endedOther path isOther
    rw [found, foundOther, Except.ok.inj (givenOther.symm.trans given)]

/-- A file under two spellings has one entry; one that may not be read and one that is missing
have their own. -/
theorem ofFiles_spellings_twice :
    let denied : OsError := ⟨13, "Permission denied"⟩
    let tree : FileTree :=
      { home := ["work"]
        files := [(["work", "a.api"], "import \"b.api\"\n".toUTF8.toList), (["work", "c.api"], [])]
        faults := [((.openToRead, ["work", "c.api"]), denied)] }
    let imports : Spec := { imports := [{ value := "b.api" }], services := [{}] }
    let here : Path := ⟨0, ["a.api"]⟩
    let locked : Path := ⟨0, ["c.api"]⟩
    let missing : Path := ⟨0, ["b.api"]⟩
    ∃ batch, (ofFiles tree (["a.api", "c.api", "b.api", "./a.api"].map Path.ofString)).result =
        .ok batch ∧
      batch.map Prod.fst = [here, locked, missing] ∧ batch.lookup here = some (.ok imports) ∧
      batch.lookup locked = some (.error (.unreadable locked (.opening denied))) ∧
      batch.lookup missing = some (.error (.missing missing)) := by
  intro denied tree imports here locked missing
  have paths : ["a.api", "c.api", "b.api", "./a.api"].map Path.ofString =
      [here, locked, missing, here] := by
    decide +kernel
  have givesHere : alone tree here = .ok (.ok imports) := by decide +kernel
  have givesLocked : alone tree locked = .ok (.error (.unreadable locked (.opening denied))) := by
    decide +kernel
  have givesMissing : alone tree missing = .ok (.error (.missing missing)) := by decide +kernel
  have reads : ∀ path ∈ [here, locked, missing, here], ∀ cause,
      ¬Document.BreaksDown tree path cause := by
    simp only [List.forall_mem_cons, ← exists_alone_iff]
    exact ⟨⟨_, givesHere⟩, ⟨_, givesLocked⟩, ⟨_, givesMissing⟩, ⟨_, givesHere⟩, by simp⟩
  obtain ⟨batch, ended, keys, entries⟩ :=
    (ofFiles_spellings tree ["a.api", "c.api", "b.api", "./a.api"]).1 (paths ▸ reads)
  rw [paths] at keys entries
  obtain ⟨first, givenFirst, foundFirst⟩ := entries here (by simp)
  obtain ⟨second, givenSecond, foundSecond⟩ := entries locked (by simp)
  obtain ⟨third, givenThird, foundThird⟩ := entries missing (by simp)
  obtain rfl := Except.ok.inj (givenFirst.symm.trans givesHere)
  obtain rfl := Except.ok.inj (givenSecond.symm.trans givesLocked)
  obtain rfl := Except.ok.inj (givenThird.symm.trans givesMissing)
  exact ⟨batch, congrArg Logged.result ended, keys.trans (by decide), foundFirst, foundSecond,
    foundThird⟩

/-- Not every batch has an entry for each of its paths. A name that is too long ends it. -/
theorem not_forall_ofFiles :
    ¬∀ (tree : FileTree) (spellings : List String),
      ∃ batch, (ofFiles tree (spellings.map Path.ofString)).result = .ok batch := by
  intro claim
  let tree : FileTree := { home := ["work"] }
  let letters := List.replicate 256 'n'
  let name := String.ofList letters
  have paths : ["a.api", name].map Path.ofString = [⟨0, ["a.api"]⟩, ⟨0, [name]⟩] := by
    have first : Path.ofString "a.api" = ⟨0, ["a.api"]⟩ := by decide +kernel
    have second : Path.ofString name = ⟨0, [name]⟩ :=
      Path.ofString_name (by decide) (by decide) (by decide)
    rw [List.map_cons, first, List.map_cons, second, List.map_nil]
  let entry : Path → Except InputError Spec := fun path => .error (.missing path)
  have gives : ∀ earlier ∈ [⟨0, ["a.api"]⟩], alone tree earlier = .ok (entry earlier) := by
    rw [List.forall_mem_singleton]
    decide +kernel
  have long : FileTree.maxNameSize < name.utf8ByteSize := by
    rw [String.utf8ByteSize_ofList]
    decide +kernel
  have nameable : '\x00' ∉ name.toList := by
    rw [String.toList_ofList]
    decide
  have breaks : alone tree ⟨0, [name]⟩ = .error (.notLookedUp .nameTooLong) :=
    alone_eq_error_iff.mpr (.lookup (FileTree.locate_name nameable long rfl) (by decide))
  have broken : (ofFiles tree ([⟨0, ["a.api"]⟩] ++ [⟨0, [name]⟩])).result =
      .error (.notLookedUp .nameTooLong) :=
    result_ofFiles_of_broken gives breaks
  obtain ⟨batch, ended⟩ := claim tree ["a.api", name]
  rw [paths] at ended
  rw [List.singleton_append, ended] at broken
  cases broken

end Batch

end ApiDescription
