import Goforge.Cli.Names
import Goforge.Lib.Machine

set_option autoImplicit false

namespace Goforge.Cli

open GoString

structure JobSpec where
  name : Bytes
  file : Bytes
  definition : Bytes
deriving DecidableEq

inductive JobError where
  | empty (err : EmptyName)
  | identifier (name : Bytes)
  | taken (name : Bytes)
  | conflict (name declaration owner : Bytes)
deriving DecidableEq

def jobDeclarations (spec : JobSpec) : List Bytes :=
  [spec.name, spec.name ++ ascii "Definition", spec.name ++ ascii "Handler", ascii "Dispatch" ++ spec.name,
    ascii "Test" ++ spec.name ++ ascii "Handler"]

def reservedOwners : List (Bytes × Bytes) :=
  [("dependencies", "scaffold declaration Dependencies"), ("registry", "reserved declaration Registry"),
    ("newregistry", "scaffold declaration NewRegistry"), ("newdispatcher", "scaffold declaration NewDispatcher")].map
      (fun entry => (ascii entry.1, ascii entry.2))

-- lower is strings.ToLower: the names in the state may be any text.
def declare (lower : Bytes → Bytes) (owners : List (Bytes × Bytes)) (owned : Bytes × Bytes) :
    Except JobError (List (Bytes × Bytes)) :=
  match owners.lookup (lower owned.2) with
  | some owner => .error (.conflict owned.1 owned.2 owner)
  | none => .ok ((lower owned.2, ascii "job " ++ owned.1) :: owners)

def validateJobDeclarations (lower : Bytes → Bytes) (jobs : List JobSpec) : Except JobError (List (Bytes × Bytes)) :=
  (jobs.flatMap (fun spec => (jobDeclarations spec).map (fun declaration => (spec.name, declaration)))).foldlM
    (declare lower) reservedOwners

def newJobSpec (lower : Bytes → Bytes) (name : Bytes) (jobs : List JobSpec) : Except JobError JobSpec :=
  match pascal (trimSuffix (ascii "Job") name) with
  | .error err => .error (.empty err)
  | .ok typeName =>
    if !isIdentifier typeName || !isExported typeName then .error (.identifier name)
    else
      match snake typeName with
      | .error err => .error (.empty err)
      | .ok file =>
        let spec : JobSpec := ⟨typeName, file, file ++ ascii ".v1"⟩
        if jobs.any (fun old => equalFold old.name (text spec.name) || equalFold old.file (text spec.file) ||
            equalFold old.definition (text spec.definition)) then .error (.taken typeName)
        else (validateJobDeclarations lower (jobs ++ [spec])).map (fun _ => spec)

-- The paths of the source and of its test, in internal/jobs.
def jobFiles (spec : JobSpec) : Bytes × Bytes := (spec.file ++ ascii ".go", spec.file ++ ascii "_test.go")

structure Platforms where
  os : List Bytes
  arch : List Bytes

def knownPlatforms : Platforms where
  os := ["aix", "android", "darwin", "dragonfly", "freebsd", "illumos", "ios", "js", "linux", "netbsd", "openbsd",
    "plan9", "solaris", "wasip1", "windows"].map ascii
  arch := ["386", "amd64", "amd64p32", "arm", "arm64", "loong64", "mips", "mips64", "mips64le", "mipsle", "ppc64",
    "ppc64le", "riscv64", "s390x", "sparc64", "wasm"].map ascii

def constrainedModelFilename (known : Platforms) (name : Bytes) : Bool :=
  let parts := split (byte '_') (trimSuffix (ascii ".go") name)
  let last := parts.getLastD []
  if parts.length < 2 then false
  else if last ∈ known.os ∨ last ∈ known.arch then true
  else if 3 ≤ parts.length then decide (parts.getD (parts.length - 2) [] ∈ known.os) && decide (last ∈ known.arch)
  else false

structure CompiledEverywhere (known : Platforms) (file : Bytes) : Prop where
  source : ascii ".go" <:+ file
  notTest : ¬ ascii "_test.go" <:+ file
  free : constrainedModelFilename known file = false

def Ends (ending : Bytes → Prop) (parts : List Bytes) : Prop := 2 ≤ parts.length ∧ ending (parts.getLastD [])

theorem test_file_iff (file : Bytes) :
    ascii "_test.go" <:+ file ++ ascii ".go" ↔ Ends (· = ascii "test") (split (byte '_') file) := by
  have single : split (byte '_') (ascii "test") = [ascii "test"] := by decide
  have shape : ∀ front, front ++ ascii "_test.go" = front ++ byte '_' :: ascii "test" ++ ascii ".go" := by
    simp [show ascii "_test.go" = byte '_' :: ascii "test" ++ ascii ".go" by decide]
  refine ⟨?_, ?_⟩
  · rintro ⟨front, same⟩
    rw [shape] at same
    have some := List.length_pos_iff.mpr (split_nonempty (byte '_') front)
    rw [← List.append_cancel_right same, split_between, single]
    exact ⟨by simp only [List.length_append, List.length_singleton]; omega, by simp⟩
  · rintro ⟨several, last⟩
    have parts := List.dropLast_append_getLast (split_nonempty (byte '_') file)
    rw [List.getLastD_eq_getLast?, List.getLast?_eq_some_getLast (split_nonempty (byte '_') file),
      Option.getD_some] at last
    rw [last] at parts
    generalize (split (byte '_') file).dropLast = front at parts
    have kept : split (byte '_') (join [byte '_'] front) = front := by
      refine split_join ?_ (fun part member => ?_)
      · rintro rfl
        simp [← parts] at several
      · exact split_parts (byte '_') file part (parts ▸ List.mem_append_left [ascii "test"] member)
    refine ⟨join [byte '_'] front, ?_⟩
    rw [shape, ← join_split (byte '_') (join [byte '_'] front ++ _), split_between, kept, single, parts, join_split]

theorem constrained_iff (known : Platforms) (file : Bytes) :
    constrainedModelFilename known (file ++ ascii ".go") = true ↔
      Ends (fun last => last ∈ known.os ∨ last ∈ known.arch) (split (byte '_') file) := by
  have stem : trimSuffix (ascii ".go") (file ++ ascii ".go") = file := by
    rw [trimSuffix, if_pos (List.isSuffixOf_iff_suffix.mpr (List.suffix_append _ _))]
    simp
  rw [constrainedModelFilename, stem, Ends]
  grind

theorem new_job_inv {lower : Bytes → Bytes} {name : Bytes} {jobs : List JobSpec} {spec : JobSpec}
    (accepted : newJobSpec lower name jobs = .ok spec) :
    pascal (trimSuffix (ascii "Job") name) = .ok spec.name ∧ snake spec.name = .ok spec.file ∧
      ∃ owners, validateJobDeclarations lower (jobs ++ [spec]) = .ok owners := by
  rw [newJobSpec] at accepted
  split at accepted
  · cases accepted
  split at accepted
  · cases accepted
  split at accepted
  · cases accepted
  rename_i typeName typed _ _ file named
  dsimp only at accepted
  split at accepted
  · cases accepted
  cases validated : validateJobDeclarations lower (jobs ++ [⟨typeName, file, file ++ ascii ".v1"⟩]) with
  | error err => rw [validated] at accepted; cases accepted
  | ok owners => rw [validated] at accepted; cases accepted; exact ⟨typed, named, owners, validated⟩

-- In terms of the name that was asked for: the words of its type name decide.
theorem job_compiled_iff (known : Platforms) {lower : Bytes → Bytes} {name : Bytes} {jobs : List JobSpec}
    {spec : JobSpec} (accepted : newJobSpec lower name jobs = .ok spec) :
    ∃ typeName, pascal (trimSuffix (ascii "Job") name) = .ok typeName ∧ spec.name = typeName ∧
      (CompiledEverywhere known (jobFiles spec).1 ↔
        ¬ Ends (fun last => last = ascii "test" ∨ last ∈ known.os ∨ last ∈ known.arch) (words typeName)) := by
  obtain ⟨typed, named, _⟩ := new_job_inv accepted
  refine ⟨spec.name, typed, rfl, ?_⟩
  rw [jobFiles]
  rw [snake] at named
  split at named
  · cases named
  rename_i nonempty
  have parts : split (byte '_') spec.file = words spec.name := by
    rw [← Except.ok.inj named]
    refine split_join nonempty (fun word member inside => ?_)
    exact absurd (words_plain spec.name word member _ inside) (by decide)
  have test := test_file_iff spec.file
  have platform := constrained_iff known spec.file
  rw [parts, Ends] at test platform
  refine ⟨fun compiled ended => ?_, fun free => ⟨List.suffix_append _ _, fun suffix => ?_, ?_⟩⟩
  · rcases ended.2 with last | last
    · exact compiled.notTest (test.mpr ⟨ended.1, last⟩)
    · exact absurd (platform.mpr ⟨ended.1, last⟩) (by simpa using compiled.free)
  · exact free ⟨(test.mp suffix).1, .inl (test.mp suffix).2⟩
  · by_contra constrained
    have ended := platform.mp (by simpa using constrained)
    exact free ⟨ended.1, .inr ended.2⟩

theorem job_compiled_iff_report : newJobSpec toLower (ascii "SendReportJob") [] =
      .ok ⟨ascii "SendReport", ascii "send_report", ascii "send_report.v1"⟩ ∧
    CompiledEverywhere knownPlatforms (ascii "send_report.go") := by
  have accepted : newJobSpec toLower (ascii "SendReportJob") [] =
    .ok ⟨ascii "SendReport", ascii "send_report", ascii "send_report.v1"⟩ := by decide +kernel
  obtain ⟨_, _, rfl, compiled⟩ := job_compiled_iff knownPlatforms accepted
  refine ⟨accepted, compiled.mpr ?_⟩
  rintro ⟨_, last⟩
  revert last
  decide +kernel

theorem load_test_skipped : newJobSpec toLower (ascii "LoadTest") [] =
      .ok ⟨ascii "LoadTest", ascii "load_test", ascii "load_test.v1"⟩ ∧
    (jobFiles ⟨ascii "LoadTest", ascii "load_test", ascii "load_test.v1"⟩).1 = ascii "load_test.go" ∧
    ¬ CompiledEverywhere knownPlatforms (ascii "load_test.go") :=
  ⟨by decide +kernel, by decide, fun compiled => compiled.notTest ⟨ascii "load", by decide⟩⟩

structure DistinctDeclarations (lower : Bytes → Bytes) (jobs : List JobSpec) : Prop where
  apart : (jobs.flatMap (fun spec => (jobDeclarations spec).map lower)).Nodup
  free : ∀ spec ∈ jobs, ∀ declaration ∈ jobDeclarations spec, lower declaration ∉ reservedOwners.map Prod.fst

theorem declare_all_iff (lower : Bytes → Bytes) (items : List (Bytes × Bytes)) : ∀ owners : List (Bytes × Bytes),
    (∃ result, items.foldlM (declare lower) owners = .ok result) ↔
      (items.map (fun item => lower item.2)).Nodup ∧ ∀ item ∈ items, lower item.2 ∉ owners.map Prod.fst := by
  induction items with
  | nil => exact fun owners => iff_of_true ⟨owners, rfl⟩ (by simp)
  | cons item rest ih =>
    intro owners
    rw [List.foldlM_cons, declare]
    cases found : owners.lookup (lower item.2) with
    | some owner =>
      obtain ⟨front, back, rfl, _⟩ := List.lookup_eq_some_iff.mp found
      exact iff_of_false (by rintro ⟨_, ⟨⟩⟩) (fun free => free.2 item List.mem_cons_self (by simp))
    | none =>
      have absent := List.lookup_eq_none_iff.mp found
      refine (ih _).trans ?_
      simp only [List.map_cons, List.nodup_cons, List.mem_cons, List.mem_map] at absent ⊢
      grind

theorem validate_declarations_iff (lower : Bytes → Bytes) (jobs : List JobSpec) :
    (∃ owners, validateJobDeclarations lower jobs = .ok owners) ↔ DistinctDeclarations lower jobs := by
  rw [validateJobDeclarations, declare_all_iff, List.map_flatMap]
  simp only [List.map_map, Function.comp_def]
  refine ⟨fun whole => ⟨whole.1, fun spec member declaration inside => whole.2 (spec.name, declaration) ?_⟩, ?_⟩
  · exact List.mem_flatMap.mpr ⟨spec, member, List.mem_map_of_mem inside⟩
  · rintro ⟨apart, free⟩
    refine ⟨apart, fun item member => ?_⟩
    obtain ⟨spec, found, mapped⟩ := List.mem_flatMap.mp member
    obtain ⟨declaration, inside, rfl⟩ := List.mem_map.mp mapped
    exact free spec found declaration inside

-- The metadata after any number of make:job commands; the jobs are sorted by name.
def jobStates (lower : Bytes → Bytes) : Machine.System (List JobSpec) Bytes where
  start jobs := jobs = []
  step jobs name next := ∃ spec, newJobSpec lower name jobs = .ok spec ∧ next.Perm (jobs ++ [spec])

-- No two declarations of the jobs differ in letter case only and none is one of the
-- scaffold's, so the check of the next command passes.
theorem job_declarations_distinct (lower : Bytes → Bytes) (jobs : List JobSpec)
    (reached : Machine.Reach (jobStates lower) jobs) :
    DistinctDeclarations lower jobs ∧ ∃ owners, validateJobDeclarations lower jobs = .ok owners := by
  have distinct : DistinctDeclarations lower jobs := by
    cases reached with
    | start _ initial =>
      rw [initial]
      exact ⟨List.nodup_nil, List.forall_mem_nil _⟩
    | next before _ name _ step =>
      obtain ⟨spec, accepted, sorted⟩ := step
      obtain ⟨apart, free⟩ := (validate_declarations_iff lower _).mp (new_job_inv accepted).2.2
      exact ⟨(sorted.flatMap_right _).nodup_iff.mpr apart, fun spec member => free spec (sorted.mem_iff.mp member)⟩
  exact ⟨distinct, (validate_declarations_iff lower jobs).mpr distinct⟩

theorem job_declarations_distinct_report : ∃ jobs, Machine.Reach (jobStates toLower) jobs ∧
    jobs.map JobSpec.name = [ascii "ArchiveUsers", ascii "SendReport"] ∧ DistinctDeclarations toLower jobs := by
  have first : newJobSpec toLower (ascii "SendReport") [] =
      .ok ⟨ascii "SendReport", ascii "send_report", ascii "send_report.v1"⟩ := by decide +kernel
  have second :
      newJobSpec toLower (ascii "ArchiveUsers") [⟨ascii "SendReport", ascii "send_report", ascii "send_report.v1"⟩] =
      .ok ⟨ascii "ArchiveUsers", ascii "archive_users", ascii "archive_users.v1"⟩ := by decide +kernel
  have reached :
      Machine.Reach (jobStates toLower) [⟨ascii "ArchiveUsers", ascii "archive_users", ascii "archive_users.v1"⟩,
      ⟨ascii "SendReport", ascii "send_report", ascii "send_report.v1"⟩] :=
    .next _ _ (ascii "ArchiveUsers") (.next [] _ (ascii "SendReport") (.start [] rfl) ⟨_, first, .refl _⟩)
      ⟨_, second, .swap _ _ []⟩
  exact ⟨_, reached, rfl, (job_declarations_distinct toLower _ reached).1⟩

end Goforge.Cli
