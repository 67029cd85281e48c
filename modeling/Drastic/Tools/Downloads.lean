import Mathlib.Data.List.Perm.Basic
import Drastic.Library.FanIn

namespace Drastic

open Library.FanIn (Protocol State Step Reaches AtRest start collected)

/-! `downloadManyGzipedTars` of `make.go`. -/

/-- The packages `net/http`, `compress/gzip` and `archive/tar`; a url always has the same outcome.
`unzip` comes with what the `tee` has copied of the body when `gzip.NewReader` returns. -/
structure HttpClient (Req Res Tar ε : Type) where
  newRequest : String → Except ε Req
  send : Req → Except ε Res
  unzip : Res → String × Except ε Tar

/-- `download` but for `gzip`, which nothing reads; a field is `none` while its pointer is nil. -/
structure Download (Req Res Tar : Type) where
  r : Option Tar
  body : Option String
  req : Option Req
  res : Option Res

structure DownloadResult (Req Res Tar ε : Type) where
  err : Option ε
  download : Download Req Res Tar

variable {Req Res Tar ε : Type}

def downloadGziped (client : HttpClient Req Res Tar ε) (url : String) :
    DownloadResult Req Res Tar ε :=
  match client.newRequest url with
  | .error err => ⟨some err, ⟨none, none, none, none⟩⟩
  | .ok req =>
    match client.send req with
    | .error err => ⟨some err, ⟨none, none, some req, none⟩⟩
    | .ok res =>
      match client.unzip res with
      | (body, .error err) => ⟨some err, ⟨none, some body, some req, some res⟩⟩
      | (body, .ok r) => ⟨none, ⟨some r, some body, some req, some res⟩⟩

/-- The variables of the loop `wait`; `errs` holds the values that the error texts are made of. -/
structure Collecting (Req Res Tar ε : Type) where
  doneUrls : Nat
  downloads : List (Download Req Res Tar)
  errs : List (Download Req Res Tar × ε × String)
  cancelled : Bool

/-- One result. It is none when `String` is called on a nil builder, which panics. -/
def collect (c : Collecting Req Res Tar ε) (result : DownloadResult Req Res Tar ε) :
    Option (Collecting Req Res Tar ε) :=
  let c := { c with doneUrls := c.doneUrls + 1 }
  match result.err with
  | none => some { c with downloads := c.downloads ++ [result.download] }
  | some err =>
    match result.download.body with
    | none => none
    | some body => some { c with errs := c.errs ++ [(result.download, err, body)] }

/-- The channel with its room for five results. `cancellable` tells whether `ctx` can end. -/
def downloadProtocol (client : HttpClient Req Res Tar ε) (cancellable : Bool)
    (urls : List String) :
    Protocol String (DownloadResult Req Res Tar ε) (Option (Collecting Req Res Tar ε)) where
  capacity := 5
  sends url result := result = downloadGziped client url
  waiting state := ∃ c, state = some c ∧ c.doneUrls < urls.length ∧ c.cancelled = false
  take state result := state.bind fun c => collect c result
  leaves state last := cancellable = true ∧
    last = state.map fun c => { c with cancelled := true }
  left := by
    rintro state _ ⟨_, rfl⟩ ⟨c, isSome, _, running⟩
    rw [Option.map_eq_some_iff] at isSome
    obtain ⟨_, _, rfl⟩ := isSome
    cases running

def collectingStart : Option (Collecting Req Res Tar ε) := some ⟨0, [], [], false⟩

def NoBody (client : HttpClient Req Res Tar ε) (url : String) : Prop :=
  (downloadGziped client url).err.isSome ∧ (downloadGziped client url).download.body = none

def fetched (client : HttpClient Req Res Tar ε) (url : String) : Option (Download Req Res Tar) :=
  let result := downloadGziped client url
  match result.err with
  | none => some result.download
  | some _ => none

def failed (client : HttpClient Req Res Tar ε) (url : String) :
    Option (Download Req Res Tar × ε × String) :=
  let result := downloadGziped client url
  match result.err, result.download.body with
  | some err, some body => some (result.download, err, body)
  | _, _ => none

variable {client : HttpClient Req Res Tar ε} {urls : List String}

theorem collect_download (c : Collecting Req Res Tar ε) (url : String) :
    NoBody client url ∧ collect c (downloadGziped client url) = none ∨
      ¬ NoBody client url ∧ collect c (downloadGziped client url) = some
        ⟨c.doneUrls + 1, c.downloads ++ (fetched client url).toList,
          c.errs ++ (failed client url).toList, c.cancelled⟩ := by
  cases outcome : downloadGziped client url with
  | mk err download =>
      obtain ⟨r, body, req, res⟩ := download
      cases err with
      | none => exact .inr ⟨by simp [NoBody, outcome], by simp [collect, fetched, failed, outcome]⟩
      | some err =>
          cases body with
          | none => exact .inl ⟨by simp [NoBody, outcome], rfl⟩
          | some body =>
              exact .inr ⟨by simp [NoBody, outcome], by simp [collect, fetched, failed, outcome]⟩

def collectAll (client : HttpClient Req Res Tar ε) (urls : List String)
    (state : Option (Collecting Req Res Tar ε)) : Option (Collecting Req Res Tar ε) :=
  (urls.map (downloadGziped client)).foldl
    (fun state result => state.bind fun c => collect c result) state

theorem collectAll_none (urls : List String) : collectAll client urls none = none := by
  induction urls with
  | nil => rfl
  | cons url rest ih => exact ih

theorem collectAll_bodies (c : Collecting Req Res Tar ε)
    (bodies : ∀ url ∈ urls, ¬ NoBody client url) : collectAll client urls (some c) = some
      ⟨c.doneUrls + urls.length, c.downloads ++ urls.filterMap (fetched client),
        c.errs ++ urls.filterMap (failed client), c.cancelled⟩ := by
  induction urls generalizing c with
  | nil => simp [collectAll]
  | cons url rest ih =>
      rcases collect_download c url with ⟨noBody, _⟩ | ⟨_, next⟩
      · exact absurd noBody (bodies url List.mem_cons_self)
      · have later := ih ⟨c.doneUrls + 1, c.downloads ++ (fetched client url).toList,
          c.errs ++ (failed client url).toList, c.cancelled⟩
          (fun other member => bodies other (List.mem_cons_of_mem _ member))
        have first : collectAll client (url :: rest) (some c) =
            collectAll client rest (collect c (downloadGziped client url)) := rfl
        rw [first, next, later, List.length_cons]
        simp only [List.filterMap_eq_flatMap_toList, List.flatMap_cons, List.append_assoc,
          Nat.add_assoc, Nat.add_comm 1]

theorem collectAll_noBody (state : Option (Collecting Req Res Tar ε))
    (some : ∃ url ∈ urls, NoBody client url) : collectAll client urls state = none := by
  induction urls generalizing state with
  | nil => simp at some
  | cons url rest ih =>
      have first : collectAll client (url :: rest) state = collectAll client rest
          (state.bind fun c => collect c (downloadGziped client url)) := rfl
      obtain ⟨other, member, noBody⟩ := some
      cases List.mem_cons.mp member with
      | inl here =>
          subst here
          have stops : (state.bind fun c => collect c (downloadGziped client other)) = none := by
            cases state with
            | none => rfl
            | some c =>
                rcases collect_download c other with ⟨_, next⟩ | ⟨body, _⟩
                · exact next
                · exact absurd noBody body
          rw [first, stops, collectAll_none]
      | inr later => exact first.trans (ih _ ⟨other, later, noBody⟩)

/-- The loop has made what it makes of the results received. -/
theorem collector_received {s : State String (DownloadResult Req Res Tar ε)
      (Option (Collecting Req Res Tar ε))}
    (reaches : Reaches (downloadProtocol client false urls) (start urls collectingStart) s) :
    s.collector = collectAll client (s.received.map Prod.fst) collectingStart := by
  have sent := reaches.accounted.sent
  have same : s.received.map Prod.snd = (s.received.map Prod.fst).map (downloadGziped client) := by
    rw [List.map_map]
    apply List.map_congr_left
    intro message member
    exact sent message (List.mem_append_right _ member)
  have followed := reaches.followed.resolve_right fun leaves => Bool.false_ne_true leaves.1
  rw [followed, collected, same]
  rfl

theorem rest_collected {s : State String (DownloadResult Req Res Tar ε)
      (Option (Collecting Req Res Tar ε))}
    (reaches : Reaches (downloadProtocol client false urls) (start urls collectingStart) s)
    (rest : AtRest (downloadProtocol client false urls) s)
    (bodies : ∀ url ∈ s.received.map Prod.fst, ¬ NoBody client url) :
    (s.received.map Prod.fst).Perm urls ∧ s.collector = some
      ⟨urls.length, (s.received.map Prod.fst).filterMap (fetched client),
        (s.received.map Prod.fst).filterMap (failed client), false⟩ := by
  have accounted := reaches.accounted
  have collector := collector_received reaches
  rw [collectingStart, collectAll_bodies _ bodies] at collector
  have all : (s.received.map Prod.fst).Perm urls := by
    apply accounted.all_received
    by_contra missing
    obtain ⟨next, step⟩ := accounted.progress (fun url _ => ⟨_, rfl⟩)
      ⟨_, collector, by simpa using missing, rfl⟩ (not_le.mp missing)
    exact rest next step
  refine ⟨all, ?_⟩
  rw [collector, all.length_eq]
  simp only [Nat.zero_add, List.nil_append]

/-- Whatever the order in which the downloads come to an end, and whatever the channel does, the
run comes to rest; then it has panicked if a download failed without a body, and else it has
every result once. -/
theorem downloads_collected (client : HttpClient Req Res Tar ε) (urls : List String) :
    WellFounded (fun s' s => Step (downloadProtocol client false urls) s s') ∧
    (∃ s, Reaches (downloadProtocol client false urls) (start urls collectingStart) s ∧
      AtRest (downloadProtocol client false urls) s) ∧
    ∀ s, Reaches (downloadProtocol client false urls) (start urls collectingStart) s →
      AtRest (downloadProtocol client false urls) s →
      (∃ url ∈ urls, NoBody client url) ∧ s.collector = none ∨
        (∀ url ∈ urls, ¬ NoBody client url) ∧ ∃ c, s.collector = some c ∧
          c.doneUrls = urls.length ∧ c.downloads.Perm (urls.filterMap (fetched client)) ∧
          c.errs.Perm (urls.filterMap (failed client)) := by
  refine ⟨Library.FanIn.step_wellFounded _, Library.FanIn.reaches_rest _ _, ?_⟩
  intro s reaches rest
  by_cases noBody : ∃ url ∈ s.received.map Prod.fst, NoBody client url
  · refine .inl ⟨?_, (collector_received reaches).trans (collectAll_noBody _ noBody)⟩
    obtain ⟨url, member, fails⟩ := noBody
    exact ⟨url, reaches.accounted.received_subset member, fails⟩
  · have bodies : ∀ url ∈ s.received.map Prod.fst, ¬ NoBody client url := by
      intro url member fails
      exact noBody ⟨url, member, fails⟩
    obtain ⟨all, collector⟩ := rest_collected reaches rest bodies
    refine .inr ⟨fun url member => bodies url (all.mem_iff.mpr member), _, collector, rfl, ?_, ?_⟩
    · exact all.filterMap (fetched client)
    · exact all.filterMap (failed client)

end Drastic
