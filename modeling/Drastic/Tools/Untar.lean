import Drastic.Library.Assign
import Drastic.Library.CleanPath

namespace Drastic

open Library (CleanPath PathPart PathBase assign)
open Library.CleanPath (Within Inner Apart)

/-! `untar` of `make.go`. -/

abbrev Name := List Char
abbrev Path := CleanPath Name

def trimPrefix (s lead : List Char) : List Char :=
  if lead.isPrefixOf s then s.drop lead.length else s

def pathPart (component : Name) : PathPart Name :=
  if component = [] ∨ component = ['.'] then .here
  else if component = ['.', '.'] then .up
  else .name component

def pathParts (path : List Char) : List (PathPart Name) := (path.splitOn '/').map pathPart

def filepathClean (path : List Char) : Path :=
  let base := if path.head? = some '/' then .root else .above 0
  (CleanPath.ofBase base).follow (pathParts path)

/-- Empty elements are ignored; none is the empty path. -/
def filepathJoin (directory name : List Char) : Option Path :=
  match [directory, name].filter (· ≠ []) with
  | [] => none
  | elements => some (filepathClean (['/'].intercalate elements))

theorem filepathJoin_eq {directory : List Char} (named : directory ≠ []) (name : List Char) :
    filepathJoin directory name = some ((filepathClean directory).follow (pathParts name)) := by
  have first : [directory, name].filter (· ≠ []) =
      directory :: [name].filter (· ≠ []) := List.filter_cons_of_pos (by simpa using named)
  rw [filepathJoin, first]
  by_cases empty : name = []
  · subst empty
    exact congrArg (some ∘ filepathClean) (List.append_nil directory)
  · have joined : ['/'].intercalate (directory :: [name].filter (· ≠ [])) =
        directory ++ '/' :: name := by
      simp [empty, List.intercalate]
    have base : (directory ++ '/' :: name).head? = directory.head? := by
      cases directory with
      | nil => exact absurd rfl named
      | cons first rest => rfl
    dsimp only
    rw [joined, filepathClean, base, pathParts, List.splitOn_append_cons_self, List.map_append,
      CleanPath.follow_append]
    rfl

abbrev Mode := BitVec 9

inductive FileNode where
  | directory (mode : Mode)
  | file (mode : Mode) (content : List (BitVec 8))
  deriving DecidableEq, Repr

/-- What there is below the directories given by their base alone, which are always there and open
to everybody. There are no symbolic links, everything belongs to the user of the process, and the
disk is never full. -/
abbrev FileSystem := Path → Option FileNode

inductive FileError where
  | exists
  | missing
  | notDirectory
  | isDirectory
  | denied
  deriving DecidableEq, Repr

/-- `privileged` is the superuser. -/
structure Process where
  umask : Mode
  privileged : Bool

def Process.may (proc : Process) (mode wanted : Mode) : Bool :=
  proc.privileged || mode &&& wanted = wanted

def Process.created (proc : Process) (mode : Mode) : Mode := mode &&& ~~~proc.umask

def obstacle (proc : Process) (fs : FileSystem) (directory : Path) : Option FileError :=
  match fs directory with
  | none => some .missing
  | some (.file _ _) => some .notDirectory
  | some (.directory mode) => if proc.may mode 0o100 then none else some .denied

def walk (proc : Process) (fs : FileSystem) (path : Path) : Option FileError :=
  path.ancestors.findSome? (obstacle proc fs)

def mayWrite (proc : Process) (fs : FileSystem) (path : Path) : Bool :=
  match path.parent with
  | none => false
  | some parent =>
    parent.names = [] ||
      match fs parent with
      | some (.directory mode) => proc.may mode 0o200
      | _ => false

def mkdir (proc : Process) (fs : FileSystem) (name : Option Path) (mode : Mode) :
    Except FileError FileSystem :=
  match name with
  | none => .error .missing
  | some path =>
    if path.names = [] then .error .exists
    else
      match walk proc fs path with
      | some err => .error err
      | none =>
        if fs path ≠ none then .error .exists
        else if !mayWrite proc fs path then .error .denied
        else .ok (Function.update fs path (some (.directory (proc.created mode))))

/-- An open file; what is written to it leaves its mode. -/
structure File where
  path : Path
  mode : Mode

def File.readFrom (file : File) (fs : FileSystem) (content : List (BitVec 8)) : FileSystem :=
  Function.update fs file.path (some (.file file.mode content))

/-- `os.O_CREATE|os.O_RDWR|os.O_TRUNC`. A file that exists keeps its mode. -/
def openFile (proc : Process) (fs : FileSystem) (name : Option Path) (mode : Mode) :
    Except FileError (File × FileSystem) :=
  match name with
  | none => .error .missing
  | some path =>
    if path.names = [] then .error .isDirectory
    else
      match walk proc fs path with
      | some err => .error err
      | none =>
        match fs path with
        | some (.directory _) => .error .isDirectory
        | some (.file mode _) =>
          if !proc.may mode 0o600 then .error .denied
          else .ok (⟨path, mode⟩, File.readFrom ⟨path, mode⟩ fs [])
        | none =>
          if !mayWrite proc fs path then .error .denied
          else .ok (⟨path, proc.created mode⟩, File.readFrom ⟨path, proc.created mode⟩ fs [])

/-- `mode` holds the permission bits that `FileInfo` makes of the mode in the header. -/
structure TarHeader where
  name : List Char
  typeflag : Char
  mode : Mode

/-- `broken` is the error that ends the content. -/
structure TarEntry (ε : Type) where
  header : TarHeader
  content : List (BitVec 8)
  broken : Option ε

/-- `last` is the error behind the entries, none for `io.EOF`. -/
structure TarReader (ε : Type) where
  entries : List (TarEntry ε)
  last : Option ε

def typeDir : Char := '5'
def typeReg : Char := '0'
def typeXGlobalHeader : Char := 'g'

inductive UntarError (ε : Type) where
  | directory (name : Option Path) (err : FileError)
  | file (name : Option Path) (err : FileError)
  | content (name : Option Path) (err : ε)
  | next (err : ε)
  | panic (typeflag : Char)

variable {ε : Type}

def untarEntry (proc : Process) (targetDirectory removePrefix : List Char) (fs : FileSystem)
    (entry : TarEntry ε) : FileSystem × Option (UntarError ε) :=
  let header := entry.header
  let name := filepathJoin targetDirectory (trimPrefix header.name removePrefix)
  if header.typeflag = typeDir then
    match mkdir proc fs name header.mode with
    | .error err => (fs, some (.directory name err))
    | .ok fs => (fs, none)
  else if header.typeflag = typeReg then
    match openFile proc fs name header.mode with
    | .error err => (fs, some (.file name err))
    | .ok (file, fs) => (file.readFrom fs entry.content, entry.broken.map (.content name))
  else if header.typeflag = typeXGlobalHeader then (fs, none)
  else (fs, some (.panic header.typeflag))

def untarEntries (proc : Process) (targetDirectory removePrefix : List Char) (last : Option ε) :
    List (TarEntry ε) → FileSystem → FileSystem × Option (UntarError ε)
  | [], fs => (fs, last.map .next)
  | entry :: rest, fs =>
    match untarEntry proc targetDirectory removePrefix fs entry with
    | (fs, none) => untarEntries proc targetDirectory removePrefix last rest fs
    | (fs, some err) => (fs, some err)

def untar (proc : Process) (r : TarReader ε) (targetDirectory removePrefix : List Char)
    (fs : FileSystem) : FileSystem × Option (UntarError ε) :=
  untarEntries proc targetDirectory removePrefix r.last r.entries fs

variable {proc : Process} {fs fs' : FileSystem} {targetDirectory removePrefix : List Char}

def entryPath (targetDirectory removePrefix : List Char) (entry : TarEntry ε) : Path :=
  (filepathClean targetDirectory).follow (pathParts (trimPrefix entry.header.name removePrefix))

theorem names_of_mayWrite {path : Path} (writable : mayWrite proc fs path = true) :
    path.names ≠ [] := by
  intro base
  rw [mayWrite, CleanPath.parent, if_pos base] at writable
  cases writable

theorem mkdir_ok {path : Path} {mode : Mode} (made : mkdir proc fs (some path) mode = .ok fs') :
    fs' = Function.update fs path (some (.directory (proc.created mode))) := by
  simp only [mkdir] at made
  split at made
  · cases made
  split at made
  · cases made
  split at made
  · cases made
  split at made
  · cases made
  · cases made
    rfl

theorem openFile_ok {path : Path} {mode : Mode} {file : File}
    (opened : openFile proc fs (some path) mode = .ok (file, fs')) :
    file.path = path ∧ fs' = file.readFrom fs [] := by
  simp only [openFile] at opened
  split at opened
  · cases opened
  split at opened
  · cases opened
  split at opened
  · cases opened
  -- a file that is there, or a new one
  all_goals
    split at opened
    · cases opened
    · cases opened
      exact ⟨rfl, rfl⟩

theorem untarEntry_other (proc : Process) (named : targetDirectory ≠ []) (fs : FileSystem)
    (entry : TarEntry ε) {path : Path}
    (other : path ≠ entryPath targetDirectory removePrefix entry) :
    (untarEntry proc targetDirectory removePrefix fs entry).1 path = fs path := by
  unfold untarEntry
  dsimp only
  rw [filepathJoin_eq named, ← entryPath]
  split_ifs
  · split
    case h_1 => rfl
    case h_2 fs' made =>
      rw [mkdir_ok made]
      exact Function.update_of_ne other _ fs
  · split
    case h_1 => rfl
    case h_2 file fs' opened =>
      obtain ⟨same, rfl⟩ := openFile_ok opened
      rw [← same] at other
      exact (Function.update_of_ne other _ _).trans (Function.update_of_ne other _ fs)
  · rfl
  · rfl

theorem untarEntries_other (named : targetDirectory ≠ []) (last : Option ε)
    (entries : List (TarEntry ε)) (fs : FileSystem) {path : Path}
    (others : ∀ entry ∈ entries, path ≠ entryPath targetDirectory removePrefix entry) :
    (untarEntries proc targetDirectory removePrefix last entries fs).1 path = fs path := by
  induction entries generalizing fs with
  | nil => rfl
  | cons entry rest ih =>
      have here := untarEntry_other proc named fs entry (others entry List.mem_cons_self)
      have later (fs : FileSystem) := ih fs fun other member =>
        others other (List.mem_cons_of_mem _ member)
      rw [untarEntries]
      split
      case h_1 next done =>
        rw [done] at here
        exact (later next).trans here
      case h_2 next err failed =>
        rw [failed] at here
        exact here

def Local (removePrefix : List Char) (entry : TarEntry ε) : Prop :=
  Inner 0 (pathParts (trimPrefix entry.header.name removePrefix))

instance (removePrefix : List Char) (entry : TarEntry ε) : Decidable (Local removePrefix entry) :=
  inferInstanceAs (Decidable (Inner _ _))

theorem entryPath_within (targetDirectory : List Char) {entry : TarEntry ε}
    (isLocal : Local removePrefix entry) :
    Within (filepathClean targetDirectory) (entryPath targetDirectory removePrefix entry) := by
  have inside := Library.CleanPath.follow_within (filepathClean targetDirectory)
    (pathParts (trimPrefix entry.header.name removePrefix)) [] isLocal
  rw [List.append_nil] at inside
  exact inside

def Extended (fs fs' : FileSystem) : Prop := ∀ path node, fs path = some node → fs' path = some node

def CanCreate (proc : Process) (fs : FileSystem) (path : Path) : Prop :=
  walk proc fs path = none ∧ mayWrite proc fs path = true

instance (proc : Process) (fs : FileSystem) (path : Path) : Decidable (CanCreate proc fs path) :=
  inferInstanceAs (Decidable (_ ∧ _))

theorem obstacle_grown (grown : Extended fs fs') {directory : Path}
    (clear : obstacle proc fs directory = none) : obstacle proc fs' directory = none := by
  unfold obstacle at clear ⊢
  cases there : fs directory with
  | none =>
      rw [there] at clear
      cases clear
  | some node =>
      rw [there] at clear
      rw [grown _ node there]
      exact clear

theorem walk_grown (grown : Extended fs fs') {path : Path} (clear : walk proc fs path = none) :
    walk proc fs' path = none := by
  rw [walk, List.findSome?_eq_none_iff] at clear ⊢
  exact fun directory member => obstacle_grown grown (clear directory member)

theorem CanCreate.grown (grown : Extended fs fs') {path : Path} (can : CanCreate proc fs path) :
    CanCreate proc fs' path := by
  refine ⟨walk_grown grown can.1, ?_⟩
  have writable := can.2
  unfold mayWrite at writable ⊢
  cases parent : path.parent with
  | none =>
      rw [parent] at writable
      cases writable
  | some directory =>
      rw [parent] at writable
      dsimp only at writable ⊢
      cases there : fs directory with
      | none =>
          rw [there, Bool.or_false] at writable
          rw [writable, Bool.true_or]
      | some node =>
          rw [there] at writable
          rw [grown _ node there]
          exact writable

theorem grown_assign {list : List (Path × FileNode)}
    (fresh : ∀ placed ∈ list, fs placed.1 = none) : Extended fs (assign fs list) := by
  intro path node there
  rw [Library.assign_absent fs list, there]
  intro member
  obtain ⟨placed, inList, rfl⟩ := List.mem_map.mp member
  rw [fresh placed inList] at there
  cases there

def FileNode.admits (proc : Process) : FileNode → Bool
  | .directory mode => proc.may mode 0o100 && proc.may mode 0o200
  | .file _ _ => false

theorem CanCreate.below {path directory : Path} {node : FileNode}
    (can : CanCreate proc fs directory) (parent : path.parent = some directory)
    (there : fs directory = some node) (admits : node.admits proc = true) :
    CanCreate proc fs path := by
  cases node with
  | file mode content => cases admits
  | directory mode =>
      rw [FileNode.admits, Bool.and_eq_true] at admits
      constructor
      · have clear : obstacle proc fs directory = none := by
          rw [obstacle, there]
          exact if_pos admits.1
        have above := can.1
        rw [walk] at above ⊢
        rw [Library.CleanPath.ancestors_eq parent, List.findSome?_append, above, Option.none_or]
        split_ifs
        · rfl
        · rw [List.findSome?_singleton, clear]
      · rw [mayWrite, parent]
        dsimp only
        rw [there]
        dsimp only
        rw [admits.2, Bool.or_true]

def place (proc : Process) (targetDirectory removePrefix : List Char) (entry : TarEntry ε) :
    Option (Path × FileNode) :=
  let path := entryPath targetDirectory removePrefix entry
  let mode := proc.created entry.header.mode
  if entry.header.typeflag = typeDir then some (path, .directory mode)
  else if entry.header.typeflag = typeReg then some (path, .file mode entry.content)
  else none

def places (proc : Process) (targetDirectory removePrefix : List Char)
    (entries : List (TarEntry ε)) : List (Path × FileNode) :=
  entries.filterMap (place proc targetDirectory removePrefix)

/-- Every entry is new, and its directory is there or comes before it, with rights for the process
to put the entry into it. -/
structure Unpackable (proc : Process) (targetDirectory removePrefix : List Char) (fs : FileSystem)
    (entries : List (TarEntry ε)) : Prop where
  named : targetDirectory ≠ []
  known : ∀ entry ∈ entries, entry.header.typeflag ∈ [typeDir, typeReg, typeXGlobalHeader]
  whole : ∀ entry ∈ entries, entry.broken = none
  distinct : ((places proc targetDirectory removePrefix entries).map Prod.fst).Nodup
  fresh : ∀ placed ∈ places proc targetDirectory removePrefix entries, fs placed.1 = none
  parents : ∀ before entry after, entries = before ++ entry :: after →
    ∀ placed, place proc targetDirectory removePrefix entry = some placed →
      CanCreate proc fs placed.1 ∨
        ∃ parent ∈ places proc targetDirectory removePrefix before,
          placed.1.parent = some parent.1 ∧ parent.2.admits proc = true

theorem places_append (entries more : List (TarEntry ε)) :
    places proc targetDirectory removePrefix (entries ++ more) =
      places proc targetDirectory removePrefix entries ++
        places proc targetDirectory removePrefix more :=
  List.filterMap_append

theorem mkdir_free {path : Path} (mode : Mode) (free : fs path = none)
    (can : CanCreate proc fs path) : mkdir proc fs (some path) mode =
      .ok (Function.update fs path (some (.directory (proc.created mode)))) := by
  have named := names_of_mayWrite can.2
  simp [mkdir, named, can.1, can.2, free]

theorem openFile_free {path : Path} (mode : Mode) (free : fs path = none)
    (can : CanCreate proc fs path) : openFile proc fs (some path) mode =
      .ok (⟨path, proc.created mode⟩, File.readFrom ⟨path, proc.created mode⟩ fs []) := by
  have named := names_of_mayWrite can.2
  simp [openFile, named, can.1, can.2, free]

theorem untarEntry_places (named : targetDirectory ≠ []) {entry : TarEntry ε}
    (known : entry.header.typeflag ∈ [typeDir, typeReg, typeXGlobalHeader])
    (whole : entry.broken = none)
    (free : ∀ placed, place proc targetDirectory removePrefix entry = some placed →
      fs placed.1 = none ∧ CanCreate proc fs placed.1) :
    untarEntry proc targetDirectory removePrefix fs entry =
      (assign fs (place proc targetDirectory removePrefix entry).toList, none) := by
  unfold untarEntry
  dsimp only
  rw [filepathJoin_eq named, ← entryPath]
  by_cases directory : entry.header.typeflag = typeDir
  · have here : place proc targetDirectory removePrefix entry =
        some (entryPath targetDirectory removePrefix entry,
          .directory (proc.created entry.header.mode)) := if_pos directory
    obtain ⟨absent, can⟩ := free _ here
    rw [here, if_pos directory, mkdir_free entry.header.mode absent can]
    rfl
  by_cases file : entry.header.typeflag = typeReg
  · have here : place proc targetDirectory removePrefix entry =
        some (entryPath targetDirectory removePrefix entry,
          .file (proc.created entry.header.mode) entry.content) :=
      (if_neg directory).trans (if_pos file)
    obtain ⟨absent, can⟩ := free _ here
    rw [here, if_neg directory, if_pos file, openFile_free entry.header.mode absent can, whole]
    dsimp only
    rw [File.readFrom, File.readFrom, Function.update_idem]
    rfl
  · have header : entry.header.typeflag = typeXGlobalHeader := by
      simpa [directory, file] using known
    have here : place proc targetDirectory removePrefix entry = none :=
      (if_neg directory).trans (if_neg file)
    rw [here, if_neg directory, if_neg file, if_pos header]
    rfl

variable {before after entries : List (TarEntry ε)} {entry : TarEntry ε} {placed : Path × FileNode}

theorem Unpackable.part
    (unpackable : Unpackable proc targetDirectory removePrefix fs (before ++ after)) :
    Unpackable proc targetDirectory removePrefix fs before := by
  have distinct := unpackable.distinct
  have fresh := unpackable.fresh
  rw [places_append] at distinct fresh
  rw [List.map_append] at distinct
  exact {
    named := unpackable.named
    known := fun entry member => unpackable.known entry (List.mem_append_left _ member)
    whole := fun entry member => unpackable.whole entry (List.mem_append_left _ member)
    distinct := (List.nodup_append.mp distinct).1
    fresh := fun placed member => fresh placed (List.mem_append_left _ member)
    parents := by
      intro first entry rest split
      apply unpackable.parents first entry (rest ++ after)
      rw [split, List.append_assoc, List.cons_append] }

theorem Unpackable.place_free
    (unpackable : Unpackable proc targetDirectory removePrefix fs (before ++ after))
    (member : placed ∈ places proc targetDirectory removePrefix after) :
    assign fs (places proc targetDirectory removePrefix before) placed.1 = none := by
  have distinct := unpackable.distinct
  have fresh := unpackable.fresh
  rw [places_append] at distinct fresh
  rw [List.map_append] at distinct
  have absent : placed.1 ∉ (places proc targetDirectory removePrefix before).map Prod.fst := by
    intro earlier
    exact (List.nodup_append.mp distinct).2.2 _ earlier _ (List.mem_map_of_mem member) rfl
  rw [Library.assign_absent fs _ absent]
  exact fresh placed (List.mem_append_right _ member)

theorem Unpackable.grown
    (unpackable : Unpackable proc targetDirectory removePrefix fs (before ++ after)) :
    Extended (assign fs (places proc targetDirectory removePrefix before))
      (assign fs (places proc targetDirectory removePrefix (before ++ after))) := by
  rw [places_append, Library.assign_append]
  exact grown_assign fun placed member => unpackable.place_free member

theorem Unpackable.present
    (unpackable : Unpackable proc targetDirectory removePrefix fs entries)
    (member : placed ∈ places proc targetDirectory removePrefix entries) :
    assign fs (places proc targetDirectory removePrefix entries) placed.1 = some placed.2 :=
  Library.assign_present fs _ unpackable.distinct member

theorem Unpackable.extended
    (unpackable : Unpackable proc targetDirectory removePrefix fs entries)
    (grown : Extended fs fs')
    (held : ∀ placed ∈ places proc targetDirectory removePrefix entries,
      fs' placed.1 = some placed.2) :
    Extended (assign fs (places proc targetDirectory removePrefix entries)) fs' := by
  intro path node there
  by_cases inPlaces : path ∈ (places proc targetDirectory removePrefix entries).map Prod.fst
  · obtain ⟨placed, member, rfl⟩ := List.mem_map.mp inPlaces
    rw [held placed member, ← there, unpackable.present member]
  · rw [Library.assign_absent _ _ inPlaces] at there
    exact grown path node there

theorem Unpackable.canCreate
    (unpackable : Unpackable proc targetDirectory removePrefix fs (before ++ entry :: after))
    (here : place proc targetDirectory removePrefix entry = some placed) :
    CanCreate proc (assign fs (places proc targetDirectory removePrefix before)) placed.1 := by
  -- by the number of entries before it: its directory may come from one of them
  induction size : before.length using Nat.strong_induction_on
    generalizing before entry after placed with
  | _ length ih =>
      cases unpackable.parents before entry after rfl placed here with
      | inl there =>
          have fresh := unpackable.fresh
          rw [places_append] at fresh
          exact there.grown (grown_assign fun other member =>
            fresh other (List.mem_append_left _ member))
      | inr made =>
          obtain ⟨parent, member, isParent, admits⟩ := made
          obtain ⟨maker, inBefore, isPlace⟩ := List.mem_filterMap.mp member
          obtain ⟨first, second, rfl⟩ := List.append_of_mem inBefore
          have shorter : first.length < length := by
            rw [← size, List.length_append, List.length_cons]
            omega
          have whole := unpackable
          rw [List.append_assoc, List.cons_append] at whole
          have earlier := ih first.length shorter whole isPlace rfl
          have part : Unpackable proc targetDirectory removePrefix fs
              (first ++ maker :: second) := unpackable.part
          exact (earlier.grown part.grown).below isParent (part.present member) admits

theorem Unpackable.walked
    (unpackable : Unpackable proc targetDirectory removePrefix fs entries)
    (member : placed ∈ places proc targetDirectory removePrefix entries) :
    walk proc (assign fs (places proc targetDirectory removePrefix entries)) placed.1 = none := by
  obtain ⟨entry, inEntries, here⟩ := List.mem_filterMap.mp member
  obtain ⟨before, after, rfl⟩ := List.append_of_mem inEntries
  exact walk_grown unpackable.grown (unpackable.canCreate here).1

theorem untarEntries_places (before after : List (TarEntry ε))
    (unpackable : Unpackable proc targetDirectory removePrefix fs (before ++ after)) :
    untarEntries proc targetDirectory removePrefix none after
        (assign fs (places proc targetDirectory removePrefix before)) =
      (assign fs (places proc targetDirectory removePrefix (before ++ after)), none) := by
  induction after generalizing before with
  | nil => rw [List.append_nil, untarEntries, Option.map_none]
  | cons entry rest ih =>
      have member : entry ∈ before ++ entry :: rest := by simp
      have here := untarEntry_places unpackable.named (unpackable.known entry member)
        (unpackable.whole entry member) fun placed isPlace =>
          ⟨unpackable.place_free (List.mem_filterMap.mpr ⟨entry, List.mem_cons_self, isPlace⟩),
            unpackable.canCreate isPlace⟩
      have moved : places proc targetDirectory removePrefix before ++
          (place proc targetDirectory removePrefix entry).toList =
            places proc targetDirectory removePrefix (before ++ [entry]) := by
        rw [places_append]
        cases isPlace : place proc targetDirectory removePrefix entry with
        | none => simp [places, isPlace]
        | some placed => simp [places, isPlace]
      rw [← Library.assign_append, moved] at here
      have split : before ++ entry :: rest = before ++ [entry] ++ rest := List.append_cons ..
      rw [split] at unpackable ⊢
      rw [untarEntries, here]
      exact ih (before ++ [entry]) unpackable

theorem Unpackable.assign {list : List (Path × FileNode)}
    (unpackable : Unpackable proc targetDirectory removePrefix fs entries)
    (fresh : ∀ placed ∈ list, fs placed.1 = none)
    (apart : ∀ placed ∈ places proc targetDirectory removePrefix entries,
      placed.1 ∉ list.map Prod.fst) :
    Unpackable proc targetDirectory removePrefix (assign fs list) entries where
  named := unpackable.named
  known := unpackable.known
  whole := unpackable.whole
  distinct := unpackable.distinct
  fresh placed member :=
    (Library.assign_absent fs list (apart placed member)).trans (unpackable.fresh placed member)
  parents before entry after split placed here :=
    (unpackable.parents before entry after split placed here).imp_left
      (CanCreate.grown (grown_assign fresh))

theorem places_within (isLocal : ∀ entry ∈ entries, Local removePrefix entry)
    (member : placed ∈ places proc targetDirectory removePrefix entries) :
    Within (filepathClean targetDirectory) placed.1 := by
  obtain ⟨entry, inEntries, here⟩ := List.mem_filterMap.mp member
  have path : placed.1 = entryPath targetDirectory removePrefix entry := by
    unfold place at here
    dsimp only at here
    split_ifs at here
    · cases here
      rfl
    · cases here
      rfl
  rw [path]
  exact entryPath_within targetDirectory (isLocal entry inEntries)

theorem parents_of_positions (each : ∀ i : Fin entries.length,
    ∀ placed ∈ place proc targetDirectory removePrefix (entries.get i),
      CanCreate proc fs placed.1 ∨
        ∃ parent ∈ places proc targetDirectory removePrefix (entries.take i),
          placed.1.parent = some parent.1 ∧ parent.2.admits proc = true)
    (before : List (TarEntry ε)) (entry : TarEntry ε) (after : List (TarEntry ε))
    (split : entries = before ++ entry :: after) (placed : Path × FileNode)
    (here : place proc targetDirectory removePrefix entry = some placed) :
    CanCreate proc fs placed.1 ∨
      ∃ parent ∈ places proc targetDirectory removePrefix before,
        placed.1.parent = some parent.1 ∧ parent.2.admits proc = true := by
  subst split
  have inside : before.length < (before ++ entry :: after).length := by simp
  have position := each ⟨before.length, inside⟩ placed
  simp only [List.get_eq_getElem, List.getElem_append_right (Nat.le_refl _), Nat.sub_self,
    List.getElem_cons_zero, List.take_left] at position
  exact position here

/-- An archive as it comes from a repository, with a directory in its directory. -/
def sampleEntries (top : List Char) : List (TarEntry Unit) :=
  [⟨⟨"pax_global_header".toList, typeXGlobalHeader, 0⟩, [], none⟩,
    ⟨⟨top ++ "/".toList, typeDir, 0o775⟩, [], none⟩,
    ⟨⟨top ++ "/include/".toList, typeDir, 0o775⟩, [], none⟩,
    ⟨⟨top ++ "/include/a.h".toList, typeReg, 0o664⟩, [1, 2], none⟩,
    ⟨⟨top ++ "/README".toList, typeReg, 0o664⟩, [3], none⟩]

def sampleProcess : Process where
  umask := 0o022
  privileged := false

def sampleFiles : FileSystem := fun path =>
  if path = ⟨.above 0, ["kernel".toList]⟩ then some (.directory 0o755) else none

theorem sample_unpackable : Unpackable sampleProcess "kernel/repo".toList "repo-1".toList
    sampleFiles (sampleEntries "repo-1".toList) where
  named := by decide
  known := by decide
  whole := by decide
  distinct := by decide
  fresh := by decide
  parents := parents_of_positions (by decide)

/-- An archive of a directory is unpacked as it is: everything in it is there afterwards, and
nothing else has changed. -/
theorem untar_restores {r : TarReader ε} (whole : r.last = none)
    (unpackable : Unpackable proc targetDirectory removePrefix fs r.entries) :
    ∃ fs', untar proc r targetDirectory removePrefix fs = (fs', none) ∧
      (∀ placed ∈ places proc targetDirectory removePrefix r.entries,
        fs' placed.1 = some placed.2) ∧
      ∀ path ∉ (places proc targetDirectory removePrefix r.entries).map Prod.fst,
        fs' path = fs path := by
  refine ⟨assign fs (places proc targetDirectory removePrefix r.entries), ?_, ?_, ?_⟩
  · rw [untar, whole]
    exact untarEntries_places [] r.entries unpackable
  · exact fun placed member => unpackable.present member
  · exact fun path absent => Library.assign_absent fs _ absent

theorem untar_restores_sample : ∃ fs',
    untar sampleProcess ⟨sampleEntries "repo-1".toList, none⟩ "kernel/repo".toList
      "repo-1".toList sampleFiles = (fs', none) ∧
      (∀ placed ∈ places sampleProcess "kernel/repo".toList "repo-1".toList
        (sampleEntries "repo-1".toList), fs' placed.1 = some placed.2) ∧
      ∀ path ∉ (places sampleProcess "kernel/repo".toList "repo-1".toList
        (sampleEntries "repo-1".toList)).map Prod.fst, fs' path = sampleFiles path :=
  untar_restores rfl sample_unpackable

/-- Whatever is in the archive and whatever goes wrong: as long as no name leads out of it, nothing
outside of the target directory is changed. -/
theorem untar_confined (proc : Process) (r : TarReader ε) (fs : FileSystem)
    (named : targetDirectory ≠ []) (isLocal : ∀ entry ∈ r.entries, Local removePrefix entry)
    {path : Path} (outside : ¬ Within (filepathClean targetDirectory) path) :
    (untar proc r targetDirectory removePrefix fs).1 path = fs path := by
  apply untarEntries_other named
  intro entry member same
  rw [same] at outside
  exact outside (entryPath_within targetDirectory (isLocal entry member))

theorem untar_confined_sample :
    (untar sampleProcess ⟨sampleEntries "repo-1".toList, none⟩ "kernel/repo".toList
      "repo-1".toList sampleFiles).1 (filepathClean "kernel/src".toList) =
        sampleFiles (filepathClean "kernel/src".toList) :=
  untar_confined sampleProcess ⟨sampleEntries "repo-1".toList, none⟩ sampleFiles (by decide)
    (by decide) (by decide)

end Drastic
