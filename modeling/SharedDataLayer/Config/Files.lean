import Mathlib.Data.List.Perm.Basic
import SharedDataLayer.Config.Reader

/-!
# The configuration files (`src/configurationpaths.cpp`)

`findConfigurationFiles` lists the directories and sorts what it finds, and the reader opens the
results one after the other. What is collected is the name of an entry and not its path, so a file
is opened in the working directory.

A directory is its inode and a file is a name in a directory. The paths of the directories are
absolute. What is opened is the sequence that the loop goes through as long as no file makes it
throw.

* `findConfigurationFiles_same`: the order does not depend on the listing of the directories.
* `opensFound_iff`: for which working directory the right files are opened.
* `configurationFiles_iff`: for which directories this is so wherever the process works.
-/

namespace Sdl
namespace Config

/-- The type of a file. -/
inductive FileType where
  | regular | directory | symbolicLink | other
  deriving DecidableEq

/-- An entry of a directory. Not every file system reports the type; `d_type` is `DT_UNKNOWN`
then. -/
structure Dirent where
  d_name : Bytes
  type : FileType
  reported : Bool
  deriving DecidableEq

/-- `d_type`. `none` is `DT_UNKNOWN`. -/
def Dirent.d_type (e : Dirent) : Option FileType := if e.reported then some e.type else none

/-- What `opendir` and `readdir` give. A directory has no two entries of one name. -/
structure FileSystem where
  opendir : Bytes → Option Nat
  readdir : Nat → List Dirent
  names : ∀ d, ((readdir d).map Dirent.d_name).Nodup

/-- A file: its directory and its name. -/
abbrev File := Nat × Bytes

/-- The condition of the loop. -/
def Dirent.found (diread : Dirent) : Bool :=
  diread.d_type = some .regular && diread.d_name.head? ≠ some (chr '.') &&
    (str ".json").isSuffixOf diread.d_name

def findConfigurationFilesFromDirectory (fs : FileSystem) (path : Bytes)
    (paths : List Bytes) : List Bytes :=
  match fs.opendir path with
  | some dir => paths ++ ((fs.readdir dir).filter Dirent.found).map Dirent.d_name
  | none => paths

def findConfigurationFiles (fs : FileSystem) (directories : List Bytes) : List Bytes :=
  (directories.foldl (fun paths i => findConfigurationFilesFromDirectory fs i paths)
    []).insertionSort (· ≤ ·)

/-- The files that `readConfigurationFromDirectories` opens in the working directory `cwd`. -/
def opened (fs : FileSystem) (cwd : Nat) (directories : List Bytes) : List File :=
  (findConfigurationFiles fs directories).map fun i => (cwd, i)

/-! ## What should be opened -/

/-- A regular file that is not hidden and has the suffix. -/
def Dirent.IsConfiguration (e : Dirent) : Prop :=
  e.type = .regular ∧ e.d_name.head? ≠ some (chr '.') ∧ str ".json" <:+ e.d_name

instance (e : Dirent) : Decidable e.IsConfiguration := inferInstanceAs (Decidable (_ ∧ _ ∧ _))

/-- The configuration files of the directories. -/
def IsConfigurationFile (fs : FileSystem) (directories : List Bytes) (f : File) : Prop :=
  f.1 ∈ directories.filterMap fs.opendir ∧ ∃ e ∈ fs.readdir f.1, e.d_name = f.2 ∧ e.IsConfiguration

/-- The directories hold the same configuration files, listed in any order and among any other
entries. -/
structure SameFiles (directories : List Bytes) (fs fs' : FileSystem) : Prop where
  opendir : ∀ path ∈ directories, fs'.opendir path = fs.opendir path
  readdir : ∀ d, ((fs'.readdir d).filter (Dirent.IsConfiguration ·)).Perm
    ((fs.readdir d).filter (Dirent.IsConfiguration ·))

/-- Exactly the configuration files are opened, each once, and in the same order in every run with
the same files. -/
def OpensFound (fs : FileSystem) (directories : List Bytes) (cwd : Nat) : Prop :=
  (opened fs cwd directories).Nodup ∧ (∀ f, f ∈ opened fs cwd directories ↔
    IsConfigurationFile fs directories f) ∧
    ∀ fs', SameFiles directories fs fs' → opened fs' cwd directories = opened fs cwd directories

/-- The property in every working directory, with the same sequence in all of them. -/
def ConfigurationFiles (fs : FileSystem) (directories : List Bytes) : Prop :=
  ∃ files : List File, files.Nodup ∧ (∀ f, f ∈ files ↔ IsConfigurationFile fs directories f) ∧
    ∀ fs' cwd, SameFiles directories fs fs' → opened fs' cwd directories = files

/-- All configuration files are in the working directory, which is among the directories once, and
their types are reported. -/
structure AllInside (fs : FileSystem) (directories : List Bytes) (cwd : Nat) : Prop where
  inside : ∀ f, IsConfigurationFile fs directories f → f.1 = cwd
  reported : ∀ d ∈ directories.filterMap fs.opendir, ∀ e ∈ fs.readdir d, e.IsConfiguration →
    e.reported = true
  once : (∃ f, IsConfigurationFile fs directories f) →
    (directories.filterMap fs.opendir).count cwd ≤ 1

section Names

variable {fs fs' : FileSystem} {directories : List Bytes}

theorem Dirent.found_iff {e : Dirent} : e.found = true ↔ e.IsConfiguration ∧ e.reported = true := by
  have htype : e.d_type = some .regular ↔ e.type = .regular ∧ e.reported = true := by
    unfold Dirent.d_type
    cases e.reported with
    | true => simp
    | false => simp
  simp only [Dirent.found, Bool.and_eq_true, decide_eq_true_eq, htype, List.isSuffixOf_iff_suffix,
    Dirent.IsConfiguration]
  tauto

/-- What is found in one directory. -/
def namesIn (fs : FileSystem) (d : Nat) : List Bytes :=
  ((fs.readdir d).filter Dirent.found).map Dirent.d_name

theorem mem_namesIn {d : Nat} {n : Bytes} :
    n ∈ namesIn fs d ↔ ∃ e ∈ fs.readdir d, e.d_name = n ∧ e.IsConfiguration ∧
      e.reported = true := by
  simp only [namesIn, List.mem_map, List.mem_filter, Dirent.found_iff]
  constructor
  · rintro ⟨e, ⟨he, hf⟩, hn⟩
    exact ⟨e, he, hn, hf⟩
  · rintro ⟨e, he, hn, hf⟩
    exact ⟨e, ⟨he, hf⟩, hn⟩

theorem nodup_namesIn (fs : FileSystem) (d : Nat) : (namesIn fs d).Nodup :=
  (List.filter_sublist.map Dirent.d_name).nodup (fs.names d)

/-- The loop over the directories. -/
theorem foldl_findFromDirectory (fs : FileSystem) (directories paths : List Bytes) :
    directories.foldl (fun paths i => findConfigurationFilesFromDirectory fs i paths) paths =
      paths ++ (directories.filterMap fs.opendir).flatMap (namesIn fs) := by
  induction directories generalizing paths with
  | nil => simp
  | cons i directories ih =>
    rw [List.foldl_cons, ih, findConfigurationFilesFromDirectory]
    cases h : fs.opendir i with
    | none => simp [h]
    | some d => simp [h, namesIn]

theorem findConfigurationFiles_perm (fs : FileSystem) (directories : List Bytes) :
    (findConfigurationFiles fs directories).Perm
    ((directories.filterMap fs.opendir).flatMap (namesIn fs)) := by
  unfold findConfigurationFiles
  rw [foldl_findFromDirectory]
  exact List.perm_insertionSort _ _

/-- The order does not depend on the listing. -/
theorem findConfigurationFiles_same (h : SameFiles directories fs fs') :
    findConfigurationFiles fs' directories = findConfigurationFiles fs directories := by
  have hfilter : ∀ (fs : FileSystem) d, (fs.readdir d).filter Dirent.found =
      ((fs.readdir d).filter (Dirent.IsConfiguration ·)).filter Dirent.reported := by
    intro fs d
    rw [List.filter_filter]
    refine List.filter_congr fun e _ => ?_
    rw [Bool.eq_iff_iff, Dirent.found_iff, Bool.and_eq_true, decide_eq_true_eq, and_comm]
  have hnames : ∀ d, (namesIn fs' d).Perm (namesIn fs d) := by
    intro d
    simp only [namesIn, hfilter]
    exact ((h.readdir d).filter _).map _
  have hdirs : directories.filterMap fs'.opendir = directories.filterMap fs.opendir :=
    List.filterMap_congr h.opendir
  have hperm : ((directories.filterMap fs'.opendir).flatMap (namesIn fs')).Perm
      ((directories.filterMap fs.opendir).flatMap (namesIn fs)) := by
    rw [hdirs]
    exact List.Perm.flatMap_left _ fun d _ => hnames d
  have hsorted : ∀ fs, (findConfigurationFiles fs directories).Pairwise (· ≤ ·) :=
    fun fs => List.pairwise_insertionSort _ _
  apply List.Perm.eq_of_pairwise' (hsorted fs') (hsorted fs)
  exact (findConfigurationFiles_perm fs' _).trans
    (hperm.trans (findConfigurationFiles_perm fs _).symm)

theorem mem_opened {cwd : Nat} {f : File} : f ∈ opened fs cwd directories ↔
    f.1 = cwd ∧ ∃ d ∈ directories.filterMap fs.opendir, f.2 ∈ namesIn fs d := by
  obtain ⟨d, n⟩ := f
  simp only [opened, List.mem_map, (findConfigurationFiles_perm fs directories).mem_iff,
    List.mem_flatMap, Prod.mk.injEq]
  constructor
  · rintro ⟨i, hi, rfl, rfl⟩
    exact ⟨rfl, hi⟩
  · rintro ⟨rfl, hi⟩
    exact ⟨n, hi, rfl, rfl⟩

theorem nodup_opened {cwd : Nat} : (opened fs cwd directories).Nodup ↔
    ((directories.filterMap fs.opendir).flatMap (namesIn fs)).Nodup := by
  rw [opened, List.nodup_map_iff fun a b h => (Prod.mk.inj h).2,
    (findConfigurationFiles_perm fs directories).nodup_iff]

end Names

section Opened

variable {fs : FileSystem} {directories : List Bytes} {cwd : Nat}

theorem isConfigurationFile_of_mem {d : Nat} {n : Bytes} (hd : d ∈ directories.filterMap fs.opendir)
    (hn : n ∈ namesIn fs d) : IsConfigurationFile fs directories (d, n) := by
  obtain ⟨e, he, hname, hconf, -⟩ := mem_namesIn.mp hn
  exact ⟨hd, e, he, hname, hconf⟩

/-- A directory that is there twice gives its names twice. -/
theorem count_le_one_of_nodup {l : List Nat} (h : (l.flatMap (namesIn fs)).Nodup) {n : Bytes}
    (hn : n ∈ namesIn fs cwd) : l.count cwd ≤ 1 := by
  by_contra hc
  have htwice : [cwd, cwd].Sublist l := List.replicate_sublist_iff.mpr (by omega : 2 ≤ l.count cwd)
  have hdisjoint := List.pairwise_iff_forall_sublist.mp (List.nodup_flatMap.mp h).2 htwice
  exact hdisjoint hn hn

theorem OpensFound.allInside (h : OpensFound fs directories cwd) :
    AllInside fs directories cwd := by
  obtain ⟨hnodup, hmem, -⟩ := h
  have hfound : ∀ f, IsConfigurationFile fs directories f → f.1 = cwd ∧ f.2 ∈ namesIn fs cwd := by
    intro f hf
    obtain ⟨hcwd, d, hd, hn⟩ := mem_opened.mp ((hmem f).mpr hf)
    -- The directory where the name was found is the working directory too.
    have hd' := (mem_opened.mp ((hmem _).mpr (isConfigurationFile_of_mem hd hn))).1
    rw [← hd']
    exact ⟨hcwd.trans hd'.symm, hn⟩
  refine ⟨fun f hf => (hfound f hf).1, fun d hd e he hconf => ?_, fun ⟨f, hf⟩ => ?_⟩
  · obtain ⟨rfl, hn⟩ := hfound (d, e.d_name) ⟨hd, e, he, rfl, hconf⟩
    obtain ⟨e', he', hname, -, hrep⟩ := mem_namesIn.mp hn
    rw [← List.inj_on_of_nodup_map (fs.names _) he' he hname]
    exact hrep
  · exact count_le_one_of_nodup (nodup_opened.mp hnodup) (hfound f hf).2

theorem AllInside.nodup (h : AllInside fs directories cwd) : (opened fs cwd directories).Nodup := by
  rw [nodup_opened, List.nodup_flatMap]
  refine ⟨fun d _ => nodup_namesIn fs d,
    List.pairwise_iff_forall_sublist.mpr fun {a b} hab n ha hb => ?_⟩
  have hmem : ∀ d ∈ [a, b], n ∈ namesIn fs d → IsConfigurationFile fs directories (d, n) :=
    fun d hd hn => isConfigurationFile_of_mem (hab.subset hd) hn
  have hconf := hmem a (by simp) ha
  have ha' : a = cwd := h.inside _ hconf
  have hb' : b = cwd := h.inside _ (hmem b (by simp) hb)
  rw [ha', hb'] at hab
  have htwice : 2 ≤ (directories.filterMap fs.opendir).count cwd :=
    List.replicate_sublist_iff.mp hab
  have := h.once ⟨_, hconf⟩
  omega

theorem AllInside.mem (h : AllInside fs directories cwd) (f : File) :
    f ∈ opened fs cwd directories ↔ IsConfigurationFile fs directories f := by
  rw [mem_opened]
  constructor
  · rintro ⟨hcwd, d, hd, hn⟩
    have hconf := isConfigurationFile_of_mem hd hn
    have hd' : d = cwd := h.inside _ hconf
    rw [hd', ← hcwd] at hconf
    exact hconf
  · intro hf
    obtain ⟨hd, e, he, hname, hconf⟩ := hf
    refine ⟨h.inside f ⟨hd, e, he, hname, hconf⟩, f.1, hd, ?_⟩
    exact mem_namesIn.mpr ⟨e, he, hname, hconf, h.reported f.1 hd e he hconf⟩

theorem opensFound_iff : OpensFound fs directories cwd ↔ AllInside fs directories cwd := by
  refine ⟨OpensFound.allInside, fun h => ⟨h.nodup, h.mem, fun fs' hsame => ?_⟩⟩
  unfold opened
  rw [findConfigurationFiles_same hsame]

end Opened

theorem SameFiles.refl (directories : List Bytes) (fs : FileSystem) : SameFiles directories fs fs :=
  ⟨fun _ _ => rfl, fun _ => List.Perm.refl _⟩

/-- **The configuration files.** Exactly the configuration files of the directories are opened, each
once, in an order that depends on nothing else and wherever the process works, if and only if there
are none. -/
theorem configurationFiles_iff (fs : FileSystem) (directories : List Bytes) :
    ConfigurationFiles fs directories ↔ ∀ f, ¬ IsConfigurationFile fs directories f := by
  constructor
  · rintro ⟨files, hnodup, hmem, hopened⟩ f hf
    have hhere : ∀ cwd, OpensFound fs directories cwd := by
      intro cwd
      have hself := hopened fs cwd (SameFiles.refl directories fs)
      refine ⟨hself ▸ hnodup, hself ▸ hmem, fun fs' hsame => ?_⟩
      rw [hself, hopened fs' cwd hsame]
    -- In another working directory the file is not opened.
    have hother := (opensFound_iff.mp (hhere (f.1 + 1))).inside f hf
    omega
  · intro hnone
    refine ⟨[], List.nodup_nil, fun f => iff_of_false List.not_mem_nil (hnone f),
      fun fs' cwd hsame => ?_⟩
    have hinside : AllInside fs directories cwd :=
      ⟨fun f hf => absurd hf (hnone f),
        fun d hd e he hconf => absurd ⟨hd, e, he, rfl, hconf⟩ (hnone (d, e.d_name)),
        fun ⟨f, hf⟩ => absurd hf (hnone f)⟩
    obtain ⟨-, hmem, hsame'⟩ := opensFound_iff.mpr hinside
    rw [hsame' fs' hsame]
    exact List.eq_nil_iff_forall_not_mem.mpr fun f hf => hnone f ((hmem f).mp hf)

/-- The entries of a directory with one file. -/
def singleEntry (d : Nat) : List Dirent := if d = 1 then [⟨str "sdl.json", .regular, true⟩] else []

theorem singleEntry_names (d : Nat) : ((singleEntry d).map Dirent.d_name).Nodup := by
  unfold singleEntry
  split
  · exact List.nodup_singleton _
  · exact List.nodup_nil

def oneFile : FileSystem := ⟨fun path => if path = str "/run/sdl.d" then some 1
  else none, singleEntry, singleEntry_names⟩

/-- Working in the root directory, the process opens a file there. -/
theorem oneFile_opened_elsewhere :
    opened oneFile 0 [str "/run/sdl.d"] = [(0, str "sdl.json")] ∧
    IsConfigurationFile oneFile [str "/run/sdl.d"] (1, str "sdl.json") ∧
    ¬ ∀ fs directories, ConfigurationFiles fs directories := by
  have hopened : opened oneFile 0 [str "/run/sdl.d"] = [(0, str "sdl.json")] := by decide +kernel
  have hfile : IsConfigurationFile oneFile [str "/run/sdl.d"] (1, str "sdl.json") :=
    ⟨by decide, ⟨str "sdl.json", .regular, true⟩, by decide, rfl, by decide⟩
  refine ⟨hopened, hfile, fun h => ?_⟩
  obtain ⟨files, -, hmem, hrun⟩ := h oneFile [str "/run/sdl.d"]
  rw [← hrun oneFile 0 (SameFiles.refl _ _), hopened] at hmem
  exact absurd ((hmem (1, str "sdl.json")).mpr hfile) (by decide)

end Config
end Sdl
