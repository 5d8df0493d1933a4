import TaskRelay.Proofs.Crew.Gathering
import TaskRelay.Proofs.Run.Rounds

/-!
# When drains keep their leases

If the idle poll takes longer than the time to the first tick, every drain that ends well has kept
its lease.  Otherwise there is one that has not (`Rush.exists_drains`): three times in a row enough
messages for a full batch come at once, and the call of the step ends with the first tick, which
then does not come any more.  The drain never renews its lease, which has run out by the end of the
third call.
-/

namespace TaskRelay

/-! ## A rush of messages -/

namespace Rush

/-- A step takes just as long as a worker may go without a renewal. -/
def attempt (ttl : Nat) : Attempt :=
  { duration := Ticker.longestGap ttl, reply := .outcome .done }

/-- The messages all hold the same task. -/
def task : Task :=
  { phase := "load", destination := "d" }

/-- The site with some messages left, while `a` holds the lease that it was granted in the
beginning. -/
def site (ttl now left issued : Nat) (journal : List (Nat × Entry)) : Site Unit :=
  { Sample.site ttl (attempt ttl) with
    now
    channel := { held := List.replicate left { topic := "t", message := Sample.message, due := 0 } }
    leases := ({ ttl } : LeaseTable).grant "t" "a" 0
    issued
    journal }

/-- A batch that has taken in some of the messages. -/
def batch : Nat → Batch
  | 0 => ∅
  | received + 1 => { tasks := ⟨[task]⟩, messages := received + 1 }

/-- The drain when it begins to collect at `start`. -/
def gathering (settings : CollectionSettings) (ttl start : Nat) (report : DrainReport) : Drain :=
  { post := Sample.post "a" settings, report
    stage := .collecting (.start start settings.idlePoll) (.begin start ttl) }

def dispatch (ttl start : Nat) (id : String) : Site.Dispatch :=
  { engine := 0, pipeline := Sample.pipeline, context := Context.rehydrate task ∅ id, rest := ∅
    attempt := attempt ttl, start }

/-- The drain during a call that has begun at `start`. -/
def working (settings : CollectionSettings) (ttl start : Nat) (id : String)
    (report : DrainReport) : Drain :=
  { post := Sample.post "a" settings, report
    stage := .working (dispatch ttl start id) (.begin start ttl) true }

theorem absorb_batch (received : Nat) :
    (batch received).absorb Sample.message = batch (received + 1) := by
  cases received with
  | zero => exact Batch.absorb_encode ∅ ⟨[task]⟩ ∅
  | succ received => exact Batch.absorb_encode (batch (received + 1)) ⟨[task]⟩ ∅

theorem absorbAll_replicate (received : Nat) :
    (∅ : Batch).absorbAll (List.replicate received Sample.message) = batch received := by
  induction received with
  | zero => rfl
  | succ received ih =>
    rw [List.replicate_succ', absorbAll_append, ih]
    exact absorb_batch received

/-! ### Single moves -/

theorem reportAll_site (ttl now left issued : Nat) (journal : List (Nat × Entry))
    (id domain : String) (notices : List Notice) :
    ∃ journal', (site ttl now left issued journal).reportAll id domain notices =
      site ttl now left issued journal' := by
  induction notices generalizing journal with
  | nil => exact ⟨journal, rfl⟩
  | cons n notices ih => exact ih _

theorem idFor_site (ttl now left issued : Nat) (journal : List (Nat × Entry)) (id : Option String) :
    ∃ id' issued', (site ttl now left issued journal).idFor id =
      (id', site ttl now left issued' journal) := by
  cases id with
  | none => exact ⟨_, issued + 1, rfl⟩
  | some id => exact ⟨id, issued, rfl⟩

theorem calling_site (ttl start left issued : Nat) (journal : List (Nat × Entry))
    (context : Context) (id : String) :
    ∃ journal', (site ttl start left issued journal).calling 0 (Sample.engine (attempt ttl)) context
      id = site ttl start left issued journal' := by
  obtain ⟨journal', hreported⟩ := reportAll_site ttl start left issued journal id
    Sample.pipeline.domain (Pipeline.startNotices context)
  refine ⟨(start, .dispatch 0 context) :: journal', ?_⟩
  have hsame : (site ttl start left issued journal).reportAll id
      (Sample.engine (attempt ttl)).pipeline.domain (Pipeline.startNotices context) =
        site ttl start left issued journal' := hreported
  rw [Site.calling, hsame]
  rfl

theorem work_batch (settings : CollectionSettings) (ttl start received left issued : Nat)
    (journal : List (Nat × Entry)) :
    ∃ id issued' journal',
      (Sample.post "a" settings).work (batch (received + 1))
          (site ttl start left issued journal) =
        (.dispatched (dispatch ttl start id), site ttl start left issued' journal') := by
  obtain ⟨id, issued', hid⟩ := idFor_site ttl start left issued journal
    ((batch (received + 1)).correlationOf? (Sample.engine (attempt ttl)).pipeline.order)
  obtain ⟨journal', hcalling⟩ := calling_site ttl start left issued' journal
    (Context.rehydrate task ∅ id) id
  have hchoose : (Sample.engine (attempt ttl)).pipeline.choose (batch (received + 1)) id =
      .dispatch (Context.rehydrate task ∅ id) ∅ := rfl
  have hbegin : (site ttl start left issued journal).beginIteration 0
      (Sample.engine (attempt ttl)) (batch (received + 1)) =
        (.dispatched (dispatch ttl start id), site ttl start left issued' journal') := by
    rw [Site.beginIteration_eq, hid]
    simp only [hchoose, hcalling]
    rfl
  exact ⟨id, issued', journal', Post.work_of_dispatched rfl rfl hbegin⟩

/-- With the end of the call the run is complete. -/
theorem endIteration_dispatch (ttl start now left issued : Nat) (journal : List (Nat × Entry))
    (id : String) :
    ∃ journal', (site ttl now left issued journal).endIteration (dispatch ttl start id) =
      (some (.ok .complete), site ttl now left issued journal') := by
  obtain ⟨journal', hreported⟩ := reportAll_site ttl now left issued journal
    (dispatch ttl start id).context.correlationId (dispatch ttl start id).pipeline.domain
    [{ action := Sample.pipeline.action, state := .ok }]
  refine ⟨(now, .continued 0 .complete) :: journal', ?_⟩
  have hconclude : (dispatch ttl start id).pipeline.conclude? (dispatch ttl start id).rest
      ((dispatch ttl start id).context.editAll (dispatch ttl start id).attempt.edits)
      (dispatch ttl start id).attempt.reply = some {
        notices := [{ action := Sample.pipeline.action, state := .ok }]
        continuation := .complete } := rfl
  rw [Site.endIteration_eq, hconclude]
  have hnoted : (site ttl now left issued journal).noted (dispatch ttl start id) =
      site ttl now left issued journal := rfl
  simp only [hnoted, Site.carryOut, hreported]
  rfl

theorem ends_dispatch (ttl start : Nat) (id : String) :
    (dispatch ttl start id).ends = start + Ticker.longestGap ttl := rfl

theorem move?_working (settings : CollectionSettings) (ttl start left issued : Nat)
    (journal : List (Nat × Entry)) (id : String) (report : DrainReport) :
    ∃ journal',
      (working settings ttl start id report).move?
          (site ttl (start + Ticker.longestGap ttl) left issued journal) =
        some (gathering settings ttl (start + Ticker.longestGap ttl)
            { iterations := report.iterations + 1, last := some .complete },
          site ttl (start + Ticker.longestGap ttl) left issued journal') := by
  obtain ⟨journal', hend⟩ := endIteration_dispatch ttl start (start + Ticker.longestGap ttl) left
    issued journal id
  refine ⟨journal', ?_⟩
  have hends : (dispatch ttl start id).ends ≤
      (site ttl (start + Ticker.longestGap ttl) left issued journal).now :=
    Nat.le_of_eq (ends_dispatch ttl start id)
  simp only [working, Drain.move?, hends, if_true, hend]
  rfl

/-! ### The whole run -/

/-- The drain takes the messages of a batch and has its task done. -/
theorem replay?_gathering (settings : CollectionSettings) (ttl start left issued : Nat)
    (journal : List (Nat × Entry)) (report : DrainReport) :
    ∃ id issued' journal',
      (crew (site ttl start (left + batchSize settings) issued journal)
          (gathering settings ttl start report)).replay?
        (List.replicate (batchSize settings) (.move 0)) =
      some (crew (site ttl start left issued' journal') (working settings ttl start id report)) := by
  obtain ⟨received, hsize⟩ := Nat.exists_eq_succ_of_ne_zero
    (Nat.ne_of_gt (batchSize_pos settings))
  obtain ⟨id, issued', journal', hwork⟩ :=
    work_batch settings ttl start received left issued journal
  refine ⟨id, issued', journal', ?_⟩
  let held : Held := { topic := "t", message := Sample.message, due := 0 }
  have hgather := replay?_collecting (v := { post := Sample.post "a" settings, report })
    (w := working settings ttl start id report) (t := site ttl start left issued' journal')
    (.begin start ttl) settings.idlePoll (List.replicate left held)
    (List.replicate (batchSize settings) held)
    (site ttl start (left + batchSize settings) issued journal) []
  rw [List.length_replicate] at hgather
  refine hgather ?_ ?_ rfl ?_ (Nat.zero_add _) fun stage => ?_
  · rw [hsize]
    nofun
  · rw [List.replicate_append_replicate, Nat.add_comm]
    rfl
  · intro h hh
    rw [List.eq_of_mem_replicate hh]
    exact decide_eq_true (Nat.zero_le start)
  · rw [List.nil_append, List.map_replicate, hsize, absorbAll_replicate]
    simp only [Drain.work]
    exact hwork ▸ rfl

/-- All that happens from one call of the step to the next. -/
def span (settings : CollectionSettings) (ttl start : Nat) : List Deed :=
  List.replicate (batchSize settings) (.move 0) ++ [.pass (start + Ticker.longestGap ttl), .move 0]

theorem replay?_span (settings : CollectionSettings) (ttl start left issued : Nat)
    (journal : List (Nat × Entry)) (report : DrainReport) :
    ∃ issued' journal',
      (crew (site ttl start (left + batchSize settings) issued journal)
          (gathering settings ttl start report)).replay? (span settings ttl start) =
        some (crew (site ttl (start + Ticker.longestGap ttl) left issued' journal')
          (gathering settings ttl (start + Ticker.longestGap ttl)
            { iterations := report.iterations + 1, last := some .complete })) := by
  obtain ⟨id, issued', journal', hgathered⟩ :=
    replay?_gathering settings ttl start left issued journal report
  obtain ⟨journal'', hmove⟩ := move?_working settings ttl start left issued' journal' id report
  have hpass : (crew (site ttl start left issued' journal')
      (working settings ttl start id report)).perform? (.pass (start + Ticker.longestGap ttl)) =
        some (crew (site ttl (start + Ticker.longestGap ttl) left issued' journal')
          (working settings ttl start id report)) := by
    have hwakes : min (Ticker.begin start ttl).due (dispatch ttl start id).ends =
        start + Ticker.longestGap ttl := by
      rw [Ticker.due_begin, ends_dispatch, Nat.min_self]
    exact perform?_pass_of_wakesAt? (Nat.le_add_right _ _) rfl (Nat.le_of_eq hwakes.symm)
  refine ⟨issued', journal'', ?_⟩
  rw [span, Crew.replay?_append, hgathered, Option.bind_some, Crew.replay?, hpass,
    Option.bind_some, Crew.replay?, perform?_of_move? hmove]
  rfl

/-- Before the drain acquires its lease there are messages for three batches. -/
def opening (settings : CollectionSettings) (ttl : Nat) : Crew Unit :=
  let size := batchSize settings
  crew { Sample.site ttl (attempt ttl) with
    channel := (site ttl 0 (0 + size + size + size) 0 []).channel }
    { post := Sample.post "a" settings }

theorem perform?_opening (settings : CollectionSettings) (ttl : Nat) :
    (opening settings ttl).perform? (.move 0) = some (crew
      (site ttl 0 (0 + batchSize settings + batchSize settings + batchSize settings) 0 [])
      (gathering settings ttl 0 {})) :=
  perform?_of_move? rfl

/-- Three calls of the step, and a collection that finds nothing. -/
def deeds (settings : CollectionSettings) (ttl : Nat) : List Deed :=
  let gap := Ticker.longestGap ttl
  span settings ttl 0 ++ (span settings ttl (0 + gap) ++ (span settings ttl (0 + gap + gap) ++
    [.pass (0 + gap + gap + gap + settings.idlePoll)]))

theorem callsFor_span {settings : CollectionSettings} {ttl start : Nat} {d : Deed}
    (h : d ∈ span settings ttl start) (queue holder : String) :
    d.callsFor queue holder = false := by
  rw [span, List.mem_append, List.mem_replicate] at h
  rcases h with ⟨-, rfl⟩ | h
  · rfl
  · rcases List.mem_cons.1 h with rfl | h
    · rfl
    · rw [List.mem_singleton.1 h]
      rfl

theorem callsFor_deeds {settings : CollectionSettings} {ttl : Nat} {d : Deed}
    (h : d ∈ deeds settings ttl) (queue holder : String) : d.callsFor queue holder = false := by
  rw [deeds, List.mem_append, List.mem_append, List.mem_append, List.mem_singleton] at h
  rcases h with h | h | h | rfl
  · exact callsFor_span h queue holder
  · exact callsFor_span h queue holder
  · exact callsFor_span h queue holder
  · rfl

/-- Where the idle poll takes no longer than the time to the first tick, a drain may end well that
has never renewed its lease, and whose lease has run out meanwhile. -/
theorem exists_drains (settings : CollectionSettings) (ttl : Nat)
    (hidle : settings.idlePoll ≤ Ticker.longestGap ttl) :
    ∃ c₁ c₂, Crew.Drains (opening settings ttl) c₁ c₂ 0 { post := Sample.post "a" settings }
        (deeds settings ttl) ∧
      c₂.site.leases.holder? "t" c₂.site.now ≠ some "a" := by
  obtain ⟨issued₁, journal₁, hspan₁⟩ := replay?_span settings ttl 0
    (0 + batchSize settings + batchSize settings) 0 [] {}
  obtain ⟨issued₂, journal₂, hspan₂⟩ := replay?_span settings ttl (0 + Ticker.longestGap ttl)
    (0 + batchSize settings) issued₁ journal₁ { iterations := 1, last := some .complete }
  obtain ⟨issued₃, journal₃, hspan₃⟩ := replay?_span settings ttl
    (0 + Ticker.longestGap ttl + Ticker.longestGap ttl) 0 issued₂ journal₂
    { iterations := 2, last := some .complete }
  have hticks : 0 + Ticker.longestGap ttl + Ticker.longestGap ttl + Ticker.longestGap ttl +
      settings.idlePoll ≤ (Ticker.begin (0 + Ticker.longestGap ttl + Ticker.longestGap ttl +
        Ticker.longestGap ttl) ttl).due := by
    rw [Ticker.due_begin]
    exact Nat.add_le_add_left hidle _
  obtain ⟨hpass, s, hmove, -⟩ := idles
    (v := { post := Sample.post "a" settings
            report := { iterations := 3, last := some .complete } })
    (s := site ttl (0 + Ticker.longestGap ttl + Ticker.longestGap ttl + Ticker.longestGap ttl) 0
      issued₃ journal₃) rfl hticks nofun
  have hrelease := perform?_of_move? hmove
  refine ⟨_, _, ⟨rfl, rfl, perform?_opening settings ttl, ?_, ⟨_, _, _, hrelease, rfl, rfl⟩,
    fun _ hw => absurd hw List.not_mem_nil, fun d hd => callsFor_deeds hd _ _⟩, ?_⟩
  · rw [deeds, Crew.replay?_append]
    refine Option.bind_eq_some_iff.2 ⟨_, hspan₁, ?_⟩
    rw [Crew.replay?_append]
    refine Option.bind_eq_some_iff.2 ⟨_, hspan₂, ?_⟩
    rw [Crew.replay?_append]
    refine Option.bind_eq_some_iff.2 ⟨_, hspan₃, ?_⟩
    exact Option.bind_eq_some_iff.2 ⟨_, hpass, rfl⟩
  · intro hheld
    obtain ⟨expires, hlease, hlive⟩ := LeaseTable.holder?_eq_some_iff.1 hheld
    have hgranted := LeaseTable.get?_grant_self ({ ttl } : LeaseTable) "t" "a" 0
    cases hgranted.symm.trans hlease
    -- three gaps make up the whole time for which the lease of the beginning is held
    have hthird := Ticker.le_three_mul_longestGap ttl
    have hlive' : 0 + Ticker.longestGap ttl + Ticker.longestGap ttl + Ticker.longestGap ttl +
      settings.idlePoll < 0 + ttl := hlive
    omega

end Rush

/-! ## Which drains keep their leases -/

namespace Crew

/-- **When a drain keeps its lease.**  A drain that ends well has kept everybody else out, from its
acquire to its release, exactly if its lease is live when it is given back.  All drains with given
settings do, whatever is on their topics and whatever their steps do, exactly if the idle poll takes
longer than the time to the first tick. -/
theorem drains_keepOut_iff (ttl : Nat) (settings : CollectionSettings) (httl : 2 ≤ ttl) :
    (∀ (σ : Type) (c₀ c₁ c₂ : Crew σ) (j : Nat) (v : Drain) (deeds : List Deed),
      Drains c₀ c₁ c₂ j v deeds →
        (c₁.KeepsOut v.post.topic v.post.holder deeds ↔
          c₂.site.leases.holder? v.post.topic c₂.site.now = some v.post.holder)) ∧
    ((∀ (σ : Type) (c₀ c₁ c₂ : Crew σ) (j : Nat) (v : Drain) (deeds : List Deed),
      c₀.site.leases.ttl = ttl → v.post.settings = settings → Drains c₀ c₁ c₂ j v deeds →
        c₁.KeepsOut v.post.topic v.post.holder deeds) ↔
      Ticker.longestGap ttl < settings.idlePoll) := by
  refine ⟨fun σ c₀ c₁ c₂ j v deeds hdrains => hdrains.keepsOut_iff, fun hall => ?_, ?_⟩
  · refine Nat.lt_of_not_le fun hidle => ?_
    obtain ⟨c₁, c₂, hdrains, hlapsed⟩ := Rush.exists_drains settings ttl hidle
    exact hlapsed (hdrains.keepsOut_iff.1 (hall Unit _ c₁ c₂ 0 _ _ rfl rfl hdrains))
  · rintro hidle σ c₀ c₁ c₂ j v deeds rfl rfl hdrains
    exact hdrains.keepsOut httl hidle

/-- What the worker has done, if it is a drain that has ended well. -/
def report? : Worker → Option DrainReport
  | .server _ => none
  | .drain v => v.report?

theorem exists_drain_of_report? {σ : Type} {c : Crew σ} {j : Nat} {report : DrainReport}
    (h : c.workers[j]?.bind report? = some report) :
    ∃ v report, c.workers[j]? = some (.drain v) ∧ v.report? = some report := by
  obtain ⟨w, hw, hreport⟩ := Option.bind_eq_some_iff.1 h
  cases w with
  | server v => cases hreport
  | drain v => exact ⟨v, report, hw, hreport⟩

/-- The only worker of a crew drains its topic if it ends with a report. -/
theorem drains_of_report? {σ : Type} {c₀ c₁ c₂ c₃ : Crew σ} {v : Drain} {deeds : List Deed}
    {report : DrainReport} (hdrain : c₀.workers[0]? = some (.drain v)) (hready : v.stage = .ready)
    (hacquire : c₀.perform? (.move 0) = some c₁) (hrun : c₁.replay? deeds = some c₂)
    (hrelease : c₂.perform? (.move 0) = some c₃) (hlength : c₂.workers.length = 1)
    (hreport : c₃.workers[0]?.bind report? = some report)
    (hspared : ∀ d ∈ deeds, d.callsFor v.post.topic v.post.holder = false) :
    Drains c₀ c₁ c₂ 0 v deeds := by
  obtain ⟨v', report', hv', hended⟩ := exists_drain_of_report? hreport
  exact ⟨hdrain, hready, hacquire, hrun, ⟨c₃, v', report', hrelease, hv', hended⟩,
    hasOwnName_of_length_eq_one hlength v.post, hspared⟩

/-- A run of three tasks is triggered.  Each of their steps takes half the time for which a lease is
held. -/
def threeTasks : Crew Unit :=
  let tasks : TaskList := ⟨["a", "b", "c"].map fun d => { phase := "p", destination := d }⟩
  { site := ((Sample.site 3000 { duration := 1500, reply := .outcome .done }).trigger
      Sample.pipeline tasks ∅).2
    workers := [.drain { post := Sample.post "a" { idlePoll := 1100, window := 50 } }] }

/-- The drain renews its lease once in each call, and once more while it waits for further messages.
When the lease of the beginning would have run out, somebody else asks for it in vain. -/
def longSpans : List Deed :=
  [.move 0, .pass 50, .move 0, .pass 1050, .move 0, .pass 1550, .move 0,
    .move 0, .pass 1600, .move 0, .pass 2600, .move 0, .pass 3050,
    .errand (.lease .acquire "t" "other"), .pass 3100, .move 0,
    .move 0, .pass 3150, .move 0, .pass 4150, .move 0, .pass 4650, .move 0,
    .pass 5650, .move 0, .pass 5750]

/-- The drain takes longer than a lease lasts, and nobody else can acquire the queue. -/
theorem drains_keepOut_iff_longSpans :
    ∃ c₁ c₂ c₃ : Crew Unit, threeTasks.perform? (.move 0) = some c₁ ∧
      c₁.replay? longSpans = some c₂ ∧ c₂.perform? (.move 0) = some c₃ ∧
      c₃.workers[0]?.bind report? = some { iterations := 3, last := some .complete } ∧
      c₁.KeepsOut "t" "a" longSpans := by
  let v : Drain := { post := Sample.post "a" { idlePoll := 1100, window := 50 } }
  have hreplay : ((threeTasks.perform? (.move 0)).bind fun c₁ => (c₁.replay? longSpans).bind
      fun c₂ => (c₂.perform? (.move 0)).bind fun c₃ =>
        some (c₂.workers.length, c₃.workers[0]?.bind report?)) =
      some (1, some { iterations := 3, last := some .complete }) := by
    decide +kernel
  obtain ⟨c₁, hacquire, hreplay⟩ := Option.bind_eq_some_iff.1 hreplay
  obtain ⟨c₂, hrun, hreplay⟩ := Option.bind_eq_some_iff.1 hreplay
  obtain ⟨c₃, hrelease, hreplay⟩ := Option.bind_eq_some_iff.1 hreplay
  simp only [Option.some.injEq, Prod.mk.injEq] at hreplay
  obtain ⟨hlength, hreport⟩ := hreplay
  have hdrains : Drains threeTasks c₁ c₂ 0 v longSpans :=
    drains_of_report? rfl rfl hacquire hrun hrelease hlength hreport (by decide)
  have hkeeps := (drains_keepOut_iff 3000 { idlePoll := 1100, window := 50 } (by decide)).2.2
    (by decide) Unit _ _ _ 0 v longSpans rfl rfl hdrains
  exact ⟨c₁, c₂, c₃, hacquire, hrun, hrelease, hreport, hkeeps⟩

/-- A drain finds three tasks whose steps take less than a third of the time for which a lease is
held; in the middle of the third call somebody else acquires the lease. -/
def shortSpans : List Deed :=
  [.errand (.trigger 0 ⟨["a", "b", "c"].map fun d => { phase := "p", destination := d }⟩ ∅),
    .join (.drain { post := Sample.post "a" { idlePoll := 900, window := 50 } }),
    .move 0, .move 0, .pass 50, .move 0, .pass 1040, .move 0, .move 0, .pass 1090, .move 0,
    .pass 2080, .move 0, .move 0, .pass 2130, .move 0, .pass 3100,
    .errand (.lease .acquire "t" "other"), .pass 3120, .move 0, .pass 4020, .move 0]

/-- The drain does not notice, for none of its ticks ever comes. -/
theorem drained_without_lease_shortSpans :
    (({ site := Sample.site 3000 { duration := 990, reply := .outcome .done } } :
      Crew Unit).replay? shortSpans).map (fun c =>
        (c.workers.map report?, c.site.leases.holder? "t" c.site.now)) =
      some ([some { iterations := 3, last := some .complete }], some "other") := by
  decide +kernel

end Crew

end TaskRelay
