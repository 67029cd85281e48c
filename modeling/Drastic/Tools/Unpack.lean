import Mathlib.Data.List.Nodup
import Drastic.Tools.Downloads
import Drastic.Tools.Untar

namespace Drastic

open Library (assign)
open Library.CleanPath (Within Apart)
open Library.FanIn (State Reaches AtRest start)

/-! The downloads of `main` of `make.go`. -/

structure DownloadTask where
  url : String
  directory : List Char
  stripDirectory : List Char
  deriving DecidableEq, Repr

def downloadFromGithub (owner repo revision directory : String) : DownloadTask where
  url := "https://github.com/" ++ owner ++ "/" ++ repo ++ "/archive/" ++ revision ++ ".tar.gz"
  directory := directory.toList
  stripDirectory := (repo ++ "-" ++ revision).toList

def downloadTasks : List DownloadTask :=
  [{ url := "https://github.com/Limine-Bootloader/Limine/releases/latest/download/" ++
        "limine-binary.tar.gz"
     directory := "limine-binary".toList
     stripDirectory := "limine-binary".toList },
   { url := "https://github.com/osdev0/edk2-ovmf-nightly/releases/latest/download/" ++
        "edk2-ovmf.tar.gz"
     directory := "edk2-ovmf".toList
     stripDirectory := "edk2-ovmf".toList },
   downloadFromGithub "osdev0" "freestnd-c-hdrs-0bsd" "097259a899d30f0a4b7a694de2de5fdda942e923"
     "kernel/freestnd-c-hdrs",
   downloadFromGithub "osdev0" "cc-runtime" "dae79833b57a01b9fd3e359ee31def69f5ae899b"
     "kernel/cc-runtime",
   downloadFromGithub "Limine-Bootloader" "limine-protocol"
     "80ef54bed402b8c0b672a707c1df4c532f3428ad" "kernel/limine-protocol"]

def FileNode.isDirectory : FileNode → Bool
  | .directory _ => true
  | .file _ _ => false

/-- Whether a name that is clean but for slashes is that of a directory. -/
def stat (proc : Process) (fs : FileSystem) (name : List Char) : Except FileError Bool :=
  let path := filepathClean name
  if name = [] then .error .missing
  else if path.names = [] then .ok true
  else
    match walk proc fs path with
    | some err => .error err
    | none =>
      match fs path with
      | some node => .ok node.isDirectory
      | none => .error .missing

structure Needed where
  urls : List String
  urlMap : String → Option DownloadTask

def need (proc : Process) (fs : FileSystem) (needed : Needed) (task : DownloadTask) : Needed :=
  match stat proc fs task.directory with
  | .error .missing =>
    { urls := needed.urls ++ [task.url]
      urlMap := Function.update needed.urlMap task.url (some task) }
  | .error _ => needed
  | .ok _ => needed

def neededDownloads (proc : Process) (fs : FileSystem) (tasks : List DownloadTask) : Needed :=
  tasks.foldl (need proc fs) ⟨[], fun _ => none⟩

/-- Where the downloads end: in a panic, with `os.Exit(1)`, or with what is there afterwards. -/
inductive Fetched where
  | panicked
  | exited
  | done (fs : FileSystem)

variable {Req Res ε ε' : Type}

/-- One turn of the loop over the downloads. It is none for a panic, be it that of `untar` or that
of a nil pointer in the download. `requestUrl` is `URL.String` of a request. An error of `untar` is
only printed. -/
def unpack (proc : Process) (requestUrl : Req → String) (urlMap : String → Option DownloadTask)
    (fs : FileSystem) (d : Download Req Res (TarReader ε)) : Option FileSystem := do
  let req ← d.req
  let task := (urlMap (requestUrl req)).getD ⟨"", [], []⟩
  let r ← d.r
  match untar proc r task.directory task.stripDirectory fs with
  | (_, some (.panic _)) => none
  | (fs, _) => some fs

def fetch (proc : Process) (requestUrl : Req → String) (urlMap : String → Option DownloadTask)
    (fs : FileSystem) (collector : Option (Collecting Req Res (TarReader ε) ε')) : Fetched :=
  match collector with
  | none => .panicked
  | some c =>
    if c.errs ≠ [] then .exited
    else
      match c.downloads.foldlM (unpack proc requestUrl urlMap) fs with
      | none => .panicked
      | some fs => .done fs

def isMissing (proc : Process) (fs : FileSystem) (task : DownloadTask) : Bool :=
  match stat proc fs task.directory with
  | .error .missing => true
  | _ => false

def missingTasks (proc : Process) (fs : FileSystem) (tasks : List DownloadTask) :
    List DownloadTask := tasks.filter (isMissing proc fs)

variable {proc : Process} {fs fs' : FileSystem} {tasks : List DownloadTask} {task : DownloadTask}

theorem need_eq (needed : Needed) (task : DownloadTask) : need proc fs needed task =
    if isMissing proc fs task then
      ⟨needed.urls ++ [task.url], Function.update needed.urlMap task.url (some task)⟩
    else needed := by
  rw [need, isMissing]
  cases stat proc fs task.directory with
  | ok isDir => rfl
  | error err => cases err <;> rfl

def taskEntry (task : DownloadTask) : String × DownloadTask := (task.url, task)

theorem need_fold (tasks : List DownloadTask) (needed : Needed) :
    tasks.foldl (need proc fs) needed = ⟨needed.urls ++ (missingTasks proc fs tasks).map DownloadTask.url,
      assign needed.urlMap ((missingTasks proc fs tasks).map taskEntry)⟩ := by
  induction tasks generalizing needed with
  | nil => simp [missingTasks, Library.assign_nil]
  | cons task rest ih =>
      rw [List.foldl_cons, ih, need_eq]
      by_cases missing : isMissing proc fs task = true
      · simp [missingTasks, missing, Library.assign_cons, taskEntry]
      · simp [missingTasks, missing]

theorem neededDownloads_urls :
    (neededDownloads proc fs tasks).urls = (missingTasks proc fs tasks).map DownloadTask.url := by
  rw [neededDownloads, need_fold, List.nil_append]

theorem neededDownloads_urlMap (distinct : (tasks.map DownloadTask.url).Nodup)
    (member : task ∈ missingTasks proc fs tasks) :
    (neededDownloads proc fs tasks).urlMap task.url = some task := by
  have keys : (((missingTasks proc fs tasks).map taskEntry).map Prod.fst).Nodup := by
    rw [List.map_map]
    exact distinct.sublist (List.filter_sublist.map _)
  rw [neededDownloads, need_fold]
  exact Library.assign_present _ _ keys (List.mem_map_of_mem (f := taskEntry) member)

theorem tasks_ordered {needed : List DownloadTask} {urlMap : String → Option DownloadTask}
    {received : List String} (known : ∀ task ∈ needed, urlMap task.url = some task)
    (all : received.Perm (needed.map DownloadTask.url)) :
    ∃ order : List DownloadTask, order.Perm needed ∧
      order.map DownloadTask.url = received := by
  refine ⟨received.filterMap urlMap, ?_, ?_⟩
  · have back : (needed.map DownloadTask.url).filterMap urlMap = needed := by
      rw [List.filterMap_map]
      calc needed.filterMap (urlMap ∘ DownloadTask.url) = needed.filterMap some :=
            List.filterMap_congr known
        _ = needed := List.filterMap_some
    exact back ▸ all.filterMap urlMap
  · rw [List.map_filterMap]
    calc received.filterMap (fun url => (urlMap url).map DownloadTask.url)
        = received.filterMap some := by
          apply List.filterMap_congr
          intro url member
          obtain ⟨task, isNeeded, rfl⟩ := List.mem_map.mp (all.mem_iff.mp member)
          rw [known task isNeeded, Option.map_some]
      _ = received := List.filterMap_some

/-- The archive of a task can be fetched and unpacked, has the directory of the task in it and no
name that leads out of there. -/
structure Restorable (client : HttpClient Req Res (TarReader ε) ε') (proc : Process)
    (requestUrl : Req → String) (fs : FileSystem) (task : DownloadTask)
    (entries : List (TarEntry ε)) : Prop where
  fetches : ∃ body req res, requestUrl req = task.url ∧ downloadGziped client task.url =
    ⟨none, ⟨some ⟨entries, none⟩, some body, some req, some res⟩⟩
  isLocal : ∀ entry ∈ entries, Local task.stripDirectory entry
  unpackable : Unpackable proc task.directory task.stripDirectory fs entries
  root : filepathClean task.directory ∈
    (places proc task.directory task.stripDirectory entries).map Prod.fst

variable {client : HttpClient Req Res (TarReader ε) ε'} {requestUrl : Req → String}
  {urlMap : String → Option DownloadTask} {entries : List (TarEntry ε)}
  {archive : DownloadTask → List (TarEntry ε)}

def taskPlaces (proc : Process) (archive : DownloadTask → List (TarEntry ε))
    (task : DownloadTask) : List (Path × FileNode) :=
  places proc task.directory task.stripDirectory (archive task)

theorem Restorable.noBody (restorable : Restorable client proc requestUrl fs task entries) :
    ¬ NoBody client task.url := by
  obtain ⟨body, req, res, _, result⟩ := restorable.fetches
  simp [NoBody, result]

theorem Restorable.failed (restorable : Restorable client proc requestUrl fs task entries) :
    failed client task.url = none := by
  obtain ⟨body, req, res, _, result⟩ := restorable.fetches
  simp [Drastic.failed, result]

theorem Restorable.unpack (restorable : Restorable client proc requestUrl fs task entries)
    (known : urlMap task.url = some task) :
    ∃ d, fetched client task.url = some d ∧ unpack proc requestUrl urlMap fs d =
      some (assign fs (places proc task.directory task.stripDirectory entries)) := by
  obtain ⟨body, req, res, url, result⟩ := restorable.fetches
  refine ⟨⟨some ⟨entries, none⟩, some body, some req, some res⟩, by simp [fetched, result], ?_⟩
  have done : untar proc ⟨entries, none⟩ task.directory task.stripDirectory fs =
      (assign fs (places proc task.directory task.stripDirectory entries), none) :=
    untarEntries_places [] entries restorable.unpackable
  rw [Drastic.unpack]
  simp only [Option.bind_eq_bind, Option.bind_some, url, known, Option.getD_some, done]

theorem Restorable.assign (restorable : Restorable client proc requestUrl fs task entries)
    {list : List (Path × FileNode)} (fresh : ∀ placed ∈ list, fs placed.1 = none)
    (apart : ∀ placed ∈ list, ¬ Within (filepathClean task.directory) placed.1) :
    Restorable client proc requestUrl (assign fs list) task entries where
  fetches := restorable.fetches
  isLocal := restorable.isLocal
  root := restorable.root
  unpackable := by
    apply restorable.unpackable.assign fresh
    intro placed member shared
    obtain ⟨other, inList, same⟩ := List.mem_map.mp shared
    have within := places_within restorable.isLocal member
    exact apart other inList (same ▸ within)

theorem unpack_all (order : List DownloadTask) (fs : FileSystem) (distinct : order.Nodup)
    (known : ∀ task ∈ order, urlMap task.url = some task)
    (apart : ∀ task ∈ order, ∀ other ∈ order, task ≠ other →
      Apart (filepathClean task.directory) (filepathClean other.directory))
    (restorable : ∀ task ∈ order, Restorable client proc requestUrl fs task (archive task)) :
    ∃ fs', ((order.map DownloadTask.url).filterMap (fetched client)).foldlM
        (unpack proc requestUrl urlMap) fs = some fs' ∧
      (∀ task ∈ order, ∀ placed ∈ taskPlaces proc archive task, fs' placed.1 = some placed.2) ∧
      ∀ path, (∀ task ∈ order, path ∉ (taskPlaces proc archive task).map Prod.fst) →
        fs' path = fs path := by
  induction order generalizing fs with
  | nil => exact ⟨fs, rfl, by simp, fun _ _ => rfl⟩
  | cons task rest ih =>
      rw [List.nodup_cons] at distinct
      have here := restorable task List.mem_cons_self
      obtain ⟨d, isFetched, unpacked⟩ := here.unpack (known task List.mem_cons_self)
      -- the directories of the later tasks lie elsewhere
      have elsewhere : ∀ other ∈ rest, ∀ placed ∈ taskPlaces proc archive task,
          ¬ Within (filepathClean other.directory) placed.1 := by
        intro other member placed inPlaces
        have ne : task ≠ other := fun same => distinct.1 (same ▸ member)
        exact (apart task List.mem_cons_self other (List.mem_cons_of_mem _ member) ne).disjoint
          (places_within here.isLocal inPlaces)
      obtain ⟨fs', done, present, others⟩ := ih (assign fs (taskPlaces proc archive task))
        distinct.2 (fun other member => known other (List.mem_cons_of_mem _ member))
        (fun one member other isOther =>
          apart one (List.mem_cons_of_mem _ member) other (List.mem_cons_of_mem _ isOther))
        (fun other member => (restorable other (List.mem_cons_of_mem _ member)).assign
          here.unpackable.fresh (elsewhere other member))
      refine ⟨fs', ?_, ?_, ?_⟩
      · rw [List.map_cons, List.filterMap_cons_some isFetched, List.foldlM_cons, unpacked]
        exact done
      · intro other member placed inPlaces
        cases List.mem_cons.mp member with
        | inr later => exact present other later placed inPlaces
        | inl same =>
            subst same
            have kept : fs' placed.1 = assign fs (taskPlaces proc archive other) placed.1 := by
              apply others
              intro later isLater shared
              obtain ⟨twin, inTwin, same⟩ := List.mem_map.mp shared
              have restored := restorable later (List.mem_cons_of_mem _ isLater)
              exact elsewhere later isLater placed inPlaces
                (same ▸ places_within restored.isLocal inTwin)
            rw [kept]
            exact Library.assign_present _ _ here.unpackable.distinct inPlaces
      · intro path absent
        have later := others path fun other member => absent other (List.mem_cons_of_mem _ member)
        exact later.trans (Library.assign_absent _ _ (absent task List.mem_cons_self))

theorem isMissing_iff : isMissing proc fs task = true ↔
    stat proc fs task.directory = .error .missing := by
  rw [isMissing]
  cases stat proc fs task.directory with
  | ok isDir => simp
  | error err => cases err <;> simp

theorem obstacle_shrunk (proc : Process) (grown : Extended fs fs') (directory : Path) :
    obstacle proc fs directory = obstacle proc fs' directory ∨
      obstacle proc fs directory = some .missing := by
  cases there : fs directory with
  | none =>
      right
      rw [obstacle, there]
  | some node =>
      left
      rw [obstacle, obstacle, there, grown _ node there]

theorem walk_shrunk (proc : Process) (grown : Extended fs fs') (path : Path) :
    walk proc fs path = walk proc fs' path ∨ walk proc fs path = some .missing := by
  unfold walk
  induction path.ancestors with
  | nil => exact .inl rfl
  | cons directory rest ih =>
      rw [List.findSome?_cons, List.findSome?_cons]
      cases obstacle_shrunk proc grown directory with
      | inl same =>
          rw [same]
          cases obstacle proc fs' directory with
          | none => exact ih
          | some err => exact .inl rfl
      | inr missing =>
          rw [missing]
          exact .inr rfl

theorem stat_shrunk (proc : Process) (grown : Extended fs fs') (name : List Char) :
    stat proc fs name = stat proc fs' name ∨ stat proc fs name = .error .missing := by
  by_cases empty : name = []
  · exact .inl (by rw [stat, stat, if_pos empty, if_pos empty])
  by_cases base : (filepathClean name).names = []
  · exact .inl (by rw [stat, stat, if_neg empty, if_neg empty, if_pos base, if_pos base])
  simp only [stat, if_neg empty, if_neg base]
  cases walk_shrunk proc grown (filepathClean name) with
  | inr missing =>
      rw [missing]
      exact .inr rfl
  | inl same =>
      rw [same]
      cases walk proc fs' (filepathClean name) with
      | some err => exact .inl rfl
      | none =>
          cases there : fs (filepathClean name) with
          | none => exact .inr rfl
          | some node =>
              rw [grown _ node there]
              exact .inl rfl

theorem isMissing_grown (grown : Extended fs fs') (missing : isMissing proc fs' task = true) :
    isMissing proc fs task = true := by
  rw [isMissing_iff] at missing ⊢
  cases stat_shrunk proc grown task.directory with
  | inl same => exact same.trans missing
  | inr missing => exact missing

theorem Restorable.found (restorable : Restorable client proc requestUrl fs task entries) :
    isMissing proc (Library.assign fs (places proc task.directory task.stripDirectory entries))
      task = false := by
  obtain ⟨placed, member, path⟩ := List.mem_map.mp restorable.root
  have walked := restorable.unpackable.walked member
  have there := restorable.unpackable.present member
  rw [path] at walked there
  simp only [isMissing, stat, if_neg restorable.unpackable.named, walked, there]
  split_ifs
  · rfl
  · rfl

theorem downloadTasks_distinct : (downloadTasks.map DownloadTask.url).Nodup := by decide

theorem downloadTasks_apart : ∀ task ∈ downloadTasks, ∀ other ∈ downloadTasks, task ≠ other →
    Apart (filepathClean task.directory) (filepathClean other.directory) := by decide

/-- When every archive that is needed can be had, the downloads put all of them in place, in
whatever order they come to an end, and change nothing else; and the next run finds nothing
missing. -/
theorem downloads_unpacked (client : HttpClient Req Res (TarReader ε) ε') (proc : Process)
    (requestUrl : Req → String) (archive : DownloadTask → List (TarEntry ε)) (fs : FileSystem)
    (restorable : ∀ task ∈ missingTasks proc fs downloadTasks,
      Restorable client proc requestUrl fs task (archive task))
    {s : State String (DownloadResult Req Res (TarReader ε) ε')
      (Option (Collecting Req Res (TarReader ε) ε'))}
    (reaches : Reaches (downloadProtocol client false (neededDownloads proc fs downloadTasks).urls)
      (start (neededDownloads proc fs downloadTasks).urls collectingStart) s)
    (rest : AtRest (downloadProtocol client false (neededDownloads proc fs downloadTasks).urls) s) :
    ∃ fs', fetch proc requestUrl (neededDownloads proc fs downloadTasks).urlMap fs s.collector =
        .done fs' ∧
      (∀ task ∈ missingTasks proc fs downloadTasks, ∀ placed ∈ taskPlaces proc archive task,
        fs' placed.1 = some placed.2) ∧
      (∀ path, (∀ task ∈ missingTasks proc fs downloadTasks,
        path ∉ (taskPlaces proc archive task).map Prod.fst) → fs' path = fs path) ∧
      (neededDownloads proc fs' downloadTasks).urls = [] := by
  have urls : (neededDownloads proc fs downloadTasks).urls =
      (missingTasks proc fs downloadTasks).map DownloadTask.url := neededDownloads_urls
  have known : ∀ task ∈ missingTasks proc fs downloadTasks,
      (neededDownloads proc fs downloadTasks).urlMap task.url = some task :=
    fun task member => neededDownloads_urlMap downloadTasks_distinct member
  have bodies : ∀ url ∈ s.received.map Prod.fst, ¬ NoBody client url := by
    intro url member
    have isNeeded := reaches.accounted.received_subset member
    rw [urls] at isNeeded
    obtain ⟨task, missing, rfl⟩ := List.mem_map.mp isNeeded
    exact (restorable task missing).noBody
  obtain ⟨all, collector⟩ := rest_collected reaches rest bodies
  rw [urls] at all
  obtain ⟨order, perm, received⟩ := tasks_ordered known all
  have isTask : ∀ task ∈ order, task ∈ downloadTasks := fun task member =>
    List.mem_of_mem_filter (perm.mem_iff.mp member)
  have distinct : order.Nodup :=
    perm.nodup_iff.mpr ((List.Nodup.of_map _ downloadTasks_distinct).filter _)
  obtain ⟨fs', done, present, others⟩ := unpack_all order fs distinct
    (fun task member => known task (perm.mem_iff.mp member))
    (fun task member other isOther =>
      downloadTasks_apart task (isTask task member) other (isTask other isOther))
    (fun task member => restorable task (perm.mem_iff.mp member))
  have noErrors : (order.map DownloadTask.url).filterMap (failed client) = [] := by
    rw [List.filterMap_eq_nil_iff]
    intro url member
    obtain ⟨task, inOrder, rfl⟩ := List.mem_map.mp member
    exact (restorable task (perm.mem_iff.mp inOrder)).failed
  have grown : Extended fs fs' := by
    intro path node there
    rw [others path, there]
    intro task member shared
    obtain ⟨placed, inPlaces, rfl⟩ := List.mem_map.mp shared
    have fresh := (restorable task (perm.mem_iff.mp member)).unpackable.fresh placed inPlaces
    rw [fresh] at there
    cases there
  refine ⟨fs', ?_, ?_, ?_, ?_⟩
  · rw [collector, ← received]
    simp only [fetch, noErrors, ne_eq, not_true_eq_false, if_false, done]
  · exact fun task member => present task (perm.mem_iff.mpr member)
  · exact fun path absent => others path fun task member => absent task (perm.mem_iff.mp member)
  · rw [neededDownloads_urls, List.map_eq_nil_iff, missingTasks, List.filter_eq_nil_iff]
    intro task member still
    have missing : task ∈ missingTasks proc fs downloadTasks :=
      List.mem_filter.mpr ⟨member, isMissing_grown grown still⟩
    have later := (restorable task missing).unpackable.extended grown
      (present task (perm.mem_iff.mpr missing))
    have again := isMissing_grown later still
    rw [(restorable task missing).found] at again
    cases again

def sampleArchives (task : DownloadTask) : List (TarEntry Unit) :=
  sampleEntries task.stripDirectory

def sampleClient : HttpClient String String (TarReader Unit) Unit where
  newRequest := .ok
  send := .ok
  unzip url := ("", .ok ⟨((downloadTasks.find? fun task => task.url = url).map
    sampleArchives).getD [], none⟩)

theorem sample_unpackable_tasks : ∀ task ∈ downloadTasks,
    Unpackable sampleProcess task.directory task.stripDirectory sampleFiles
      (sampleArchives task) := by
  intro task member
  constructor
  case named =>
    revert task
    decide
  case known =>
    revert task
    decide
  case whole =>
    revert task
    decide
  case distinct =>
    revert task
    decide
  case fresh =>
    revert task
    decide
  case parents =>
    apply parents_of_positions
    revert task
    decide

theorem sample_restorable : ∀ task ∈ missingTasks sampleProcess sampleFiles downloadTasks,
    Restorable sampleClient sampleProcess id sampleFiles task (sampleArchives task) := by
  intro task missing
  have member := List.mem_of_mem_filter missing
  have found : ∀ task ∈ downloadTasks,
      downloadTasks.find? (fun other => other.url = task.url) = some task := by decide
  constructor
  case fetches =>
    refine ⟨"", task.url, task.url, rfl, ?_⟩
    simp [downloadGziped, sampleClient, found task member]
  case isLocal =>
    revert task
    decide
  case unpackable => exact sample_unpackable_tasks task member
  case root =>
    revert task
    decide

theorem downloads_unpacked_sample : ∃ s fs',
    AtRest (downloadProtocol sampleClient false
      (neededDownloads sampleProcess sampleFiles downloadTasks).urls) s ∧
    fetch sampleProcess id (neededDownloads sampleProcess sampleFiles downloadTasks).urlMap
      sampleFiles s.collector = .done fs' ∧
    (∀ task ∈ missingTasks sampleProcess sampleFiles downloadTasks,
      ∀ placed ∈ taskPlaces sampleProcess sampleArchives task, fs' placed.1 = some placed.2) ∧
    (neededDownloads sampleProcess fs' downloadTasks).urls = [] := by
  obtain ⟨s, reaches, rest⟩ := Library.FanIn.reaches_rest
    (downloadProtocol sampleClient false
      (neededDownloads sampleProcess sampleFiles downloadTasks).urls)
    (start (neededDownloads sampleProcess sampleFiles downloadTasks).urls collectingStart)
  obtain ⟨fs', done, present, _, found⟩ := downloads_unpacked sampleClient sampleProcess id
    sampleArchives sampleFiles sample_restorable reaches rest
  exact ⟨s, fs', rest, done, present, found⟩

end Drastic
