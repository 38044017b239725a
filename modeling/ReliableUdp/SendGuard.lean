import ReliableUdp.Protocol
import ReliableUdp.Runs

/-! The send guard: jobs wait by priority and `pump` starts the first of them when none is active.
`pump` runs the job as its last action and is the last action of its callers, so what a job calls
while it runs comes after the start like any later call. -/
namespace ReliableUdp.SendGuard
open Protocol Runs

/-- A waiting job, named by the number of `enqueue` calls before its own. -/
structure Entry where
  priority : Byte
  job : ℕ
  deriving DecidableEq, Repr

/-- Of the strand the guard only tells whether it has one. -/
structure Guard where
  strand : Bool := false
  active : Bool := false
  jobs : List Entry := []
  deriving DecidableEq, Repr

/-- The insertion of `enqueue`: behind the entries at the front of no greater number. -/
def insertEntry (entry : Entry) : List Entry → List Entry
  | [] => [entry]
  | x :: xs => if x.priority ≤ entry.priority then x :: insertEntry entry xs else entry :: x :: xs

namespace Guard

def reset (_ : Guard) : Guard := { strand := true }

def clear (g : Guard) : Guard := { g with active := false, jobs := [] }

/-- The guard with the job it starts. -/
def pump (g : Guard) : Guard × Option Entry :=
  if g.active then (g, none)
  else
    match g.jobs with
    | [] => (g, none)
    | entry :: jobs => ({ g with active := true, jobs := jobs }, some entry)

/-- `enqueue` up to its call of `pump`. -/
def insert (g : Guard) (entry : Entry) : Guard := { g with jobs := insertEntry entry g.jobs }

/-- The completion of a job up to its call of `pump`. -/
def release (g : Guard) : Guard := { g with active := false }

end Guard

/-- A started job with the jobs that waited at that moment, itself among them. -/
structure Start where
  entry : Entry
  waiting : List Entry
  deriving DecidableEq, Repr

/-- The guard with its history. A started job is posted while its strand has yet to run it. -/
structure Run where
  guard : Guard := {}
  enqueued : List Entry := []
  started : List Start := []
  posted : List ℕ := []
  completed : List ℕ := []
  discarded : List Entry := []
  deriving DecidableEq, Repr

/-- Calls into the guard, from the strand or from outside, and the strand running a posted job. -/
inductive Event
  | enqueue (priority : Byte) (onStrand : Bool)
  | clear
  | reset
  | run (job : ℕ)
  | complete (job : ℕ) (onStrand : Bool)
  deriving DecidableEq, Repr

namespace Run

def startedJobs (s : Run) : List ℕ := s.started.map fun start => start.entry.job

def outstanding (s : Run) : List ℕ := s.startedJobs.filter (· ∉ s.completed)

/-- `dispatch` runs the job at once when it is called on the strand. -/
def pump (s : Run) (onStrand : Bool) : Run :=
  match s.guard.pump with
  | (guard, none) => { s with guard := guard }
  | (guard, some entry) =>
    { s with
      guard := guard
      started := s.started ++ [⟨entry, s.guard.jobs⟩]
      posted := if guard.strand && !onStrand then s.posted ++ [entry.job] else s.posted }

def insert (s : Run) (priority : Byte) : Run :=
  let entry : Entry := ⟨priority, s.enqueued.length⟩
  { s with guard := s.guard.insert entry, enqueued := s.enqueued ++ [entry] }

def release (s : Run) (job : ℕ) : Run :=
  { s with guard := s.guard.release, completed := s.completed ++ [job] }

def step (s : Run) : Event → Run
  | .enqueue priority onStrand => (s.insert priority).pump onStrand
  | .clear => { s with guard := s.guard.clear, discarded := s.discarded ++ s.guard.jobs }
  | .reset => { s with guard := s.guard.reset, discarded := s.discarded ++ s.guard.jobs }
  | .run job => { s with posted := s.posted.erase job }
  | .complete job onStrand => (s.release job).pump onStrand

end Run

/-- A job that has begun to run calls its completion once. -/
def Allowed (s : Run) : Event → Prop
  | .run job => job ∈ s.posted
  | .complete job _ => job ∈ s.outstanding ∧ job ∉ s.posted
  | _ => True

instance (s : Run) (e : Event) : Decidable (Allowed s e) := by
  cases e <;> unfold Allowed <;> infer_instance

def initial (strand : Bool) : Run := { guard := { strand := strand } }

/-- Of lower number, or of the same number and enqueued earlier. -/
def Before (a b : Entry) : Prop :=
  a.priority < b.priority ∨ a.priority = b.priority ∧ a.job < b.job

section Queue
variable {entry : Entry} {jobs : List Entry}

lemma insertEntry_perm (entry : Entry) (jobs : List Entry) :
    (insertEntry entry jobs).Perm (entry :: jobs) := by
  induction jobs with
  | nil => rfl
  | cons x xs ih =>
    unfold insertEntry
    split_ifs
    · exact (ih.cons x).trans (List.Perm.swap entry x xs)
    · rfl

lemma pairwise_insertEntry (hsorted : jobs.Pairwise Before)
    (hlast : ∀ x ∈ jobs, x.job < entry.job) : (insertEntry entry jobs).Pairwise Before := by
  induction jobs with
  | nil => simp [insertEntry]
  | cons x xs ih =>
    obtain ⟨hx, hxs⟩ := List.pairwise_cons.mp hsorted
    have hxlast := hlast x List.mem_cons_self
    unfold insertEntry
    split_ifs with hle
    · refine List.pairwise_cons.mpr ⟨?_, ih hxs fun y hy => hlast y (List.mem_cons_of_mem x hy)⟩
      intro y hy
      rcases List.mem_cons.mp ((insertEntry_perm entry xs).mem_iff.mp hy) with rfl | hy
      · unfold Before
        bv_omega
      · exact hx y hy
    · refine List.pairwise_cons.mpr ⟨?_, hsorted⟩
      intro y hy
      rcases List.mem_cons.mp hy with rfl | hy
      · unfold Before
        bv_omega
      · have := hx y hy
        unfold Before at this ⊢
        bv_omega

end Queue

def Run.history (s : Run) : List Entry :=
  s.guard.jobs ++ s.started.map Start.entry ++ s.discarded

/-- The started job precedes every job that waited with it. -/
def Start.First (start : Start) : Prop :=
  start.entry ∈ start.waiting ∧ ∀ e ∈ start.waiting, e = start.entry ∨ Before start.entry e

/-- What holds at every point of a run, also before a `pump`. -/
structure Sound (s : Run) : Prop where
  numbered : s.enqueued.map Entry.job = List.range s.enqueued.length
  partition : s.history.Perm s.enqueued
  sorted : s.guard.jobs.Pairwise Before
  first : ∀ start ∈ s.started, start.First
  completed : ∀ job ∈ s.completed, job ∈ s.startedJobs
  latest : s.guard.active = true →
    ∃ start, s.started.getLast? = some start ∧ start.entry.job ∉ s.completed

/-- Between calls no job waits unless the guard is active. -/
def Busy (s : Run) : Prop := s.guard.jobs ≠ [] → s.guard.active = true

section Invariant
variable {s : Run}

lemma Sound.job_lt (h : Sound s) {e : Entry} (he : e ∈ s.history) : e.job < s.enqueued.length := by
  have hmem := List.mem_map_of_mem (f := Entry.job) (h.partition.mem_iff.mp he)
  rw [h.numbered] at hmem
  exact List.mem_range.mp hmem

lemma Sound.nodup (h : Sound s) : (s.history.map Entry.job).Nodup := by
  rw [(h.partition.map Entry.job).nodup_iff, h.numbered]
  exact List.nodup_range

lemma Sound.not_started (h : Sound s) {e : Entry} (he : e ∈ s.guard.jobs) :
    e.job ∉ s.startedJobs := by
  have hnodup := h.nodup
  simp only [Run.history, List.map_append, List.append_assoc, List.map_map] at hnodup
  intro hstarted
  refine (List.nodup_append.mp hnodup).2.2 _ (List.mem_map_of_mem he) _ ?_ rfl
  exact List.mem_append_left _ hstarted

lemma pump_cases (s : Run) (onStrand : Bool) :
    (s.pump onStrand = s ∧ (s.guard.jobs ≠ [] → s.guard.active = true)) ∨
      ∃ entry jobs posted, s.guard.active = false ∧ s.guard.jobs = entry :: jobs ∧
        s.pump onStrand = { s with
          guard := { s.guard with active := true, jobs := jobs }
          started := s.started ++ [⟨entry, s.guard.jobs⟩]
          posted := posted } := by
  unfold Run.pump Guard.pump
  cases hactive : s.guard.active with
  | true => exact Or.inl ⟨rfl, fun _ => rfl⟩
  | false =>
    cases hjobs : s.guard.jobs with
    | nil => exact Or.inl ⟨rfl, fun h => absurd rfl h⟩
    | cons entry jobs => exact Or.inr ⟨entry, jobs, _, rfl, rfl, rfl⟩

lemma Sound.pump (h : Sound s) (onStrand : Bool) : Sound (s.pump onStrand) := by
  rcases pump_cases s onStrand with ⟨hsame, _⟩ | ⟨entry, jobs, posted, hactive, hjobs, hstart⟩
  · rw [hsame]
    exact h
  · have hsorted := h.sorted
    rw [hjobs, List.pairwise_cons] at hsorted
    have hentry : entry ∈ s.guard.jobs := by simp [hjobs]
    rw [hstart]
    refine ⟨h.numbered, ?_, hsorted.2, ?_, ?_, ?_⟩
    · refine List.Perm.trans (List.perm_iff_count.mpr ?_) h.partition
      intro e
      simp only [Run.history, hjobs, List.map_append, List.map_cons, List.map_nil,
        List.count_append, List.count_cons, List.count_nil]
      omega
    · intro start hmem
      rcases List.mem_append.mp hmem with hmem | hmem
      · exact h.first start hmem
      · obtain rfl := List.mem_singleton.mp hmem
        refine ⟨hentry, ?_⟩
        intro e he
        dsimp only at he ⊢
        rw [hjobs] at he
        rcases List.mem_cons.mp he with rfl | he
        · exact Or.inl rfl
        · exact Or.inr (hsorted.1 e he)
    · intro job hjob
      simp only [Run.startedJobs, List.map_append]
      exact List.mem_append_left _ (h.completed job hjob)
    · intro _
      refine ⟨⟨entry, s.guard.jobs⟩, by simp, ?_⟩
      exact fun hdone => h.not_started hentry (h.completed _ hdone)

lemma busy_pump (s : Run) (onStrand : Bool) : Busy (s.pump onStrand) := by
  rcases pump_cases s onStrand with ⟨hsame, hbusy⟩ | ⟨entry, jobs, posted, _, _, hstart⟩
  · rw [hsame]
    exact hbusy
  · rw [hstart]
    exact fun _ => rfl

lemma Sound.insert (h : Sound s) (priority : Byte) : Sound (s.insert priority) := by
  refine ⟨?_, ?_, ?_, h.first, h.completed, h.latest⟩
  · simp only [Run.insert, List.map_append, List.map_cons, List.map_nil, h.numbered,
      List.length_append, List.length_singleton, List.range_succ]
  · refine List.perm_iff_count.mpr ?_
    intro e
    have hcount := h.partition.count_eq e
    have hinsert := (insertEntry_perm ⟨priority, s.enqueued.length⟩ s.guard.jobs).count_eq e
    simp only [Run.history, Run.insert, Guard.insert, List.count_append, List.count_cons,
      List.count_nil] at *
    omega
  · apply pairwise_insertEntry h.sorted
    intro x hx
    exact h.job_lt (List.mem_append_left _ (List.mem_append_left _ hx))

lemma Sound.release (h : Sound s) {job : ℕ} (hjob : job ∈ s.startedJobs) :
    Sound (s.release job) := by
  refine ⟨h.numbered, h.partition, h.sorted, h.first, ?_, fun hactive => by cases hactive⟩
  intro other hother
  rcases List.mem_append.mp hother with hother | hother
  · exact h.completed other hother
  · rwa [List.mem_singleton.mp hother]

lemma Sound.discard (h : Sound s) (strand : Bool) :
    Sound { s with guard := { strand := strand }, discarded := s.discarded ++ s.guard.jobs } := by
  refine ⟨h.numbered, ?_, List.Pairwise.nil, h.first, h.completed, fun hactive => by cases hactive⟩
  refine List.Perm.trans (List.perm_iff_count.mpr ?_) h.partition
  intro e
  simp only [Run.history, List.count_append, List.count_nil]
  omega

theorem Sound.step (h : Sound s) {e : Event} (he : Allowed s e) : Sound (s.step e) := by
  cases e with
  | enqueue priority onStrand => exact (h.insert priority).pump onStrand
  | clear => exact h.discard s.guard.strand
  | reset => exact h.discard true
  | run job => exact ⟨h.numbered, h.partition, h.sorted, h.first, h.completed, h.latest⟩
  | complete job onStrand =>
    exact (h.release (List.mem_filter.mp he.1).1).pump onStrand

theorem Busy.step (h : Busy s) (e : Event) : Busy (s.step e) := by
  cases e with
  | enqueue priority onStrand => exact busy_pump _ onStrand
  | clear => exact fun hjobs => absurd rfl hjobs
  | reset => exact fun hjobs => absurd rfl hjobs
  | run job => exact h
  | complete job onStrand => exact busy_pump _ onStrand

lemma sound_initial (strand : Bool) : Sound (initial strand) := by
  refine ⟨rfl, List.Perm.nil, List.Pairwise.nil, ?_, ?_, fun hactive => by cases hactive⟩
  · intro start hstart
    cases hstart
  · intro job hjob
    cases hjob

lemma busy_initial (strand : Bool) : Busy (initial strand) := fun hjobs => absurd rfl hjobs

lemma Sound.outstanding_of_active (h : Sound s) (hactive : s.guard.active = true) :
    s.outstanding ≠ [] := by
  obtain ⟨start, hlast, hopen⟩ := h.latest hactive
  have hmem : start.entry.job ∈ s.outstanding := by
    simp only [Run.outstanding, List.mem_filter, decide_eq_true_eq]
    exact ⟨List.mem_map_of_mem (List.mem_of_getLast? hlast), hopen⟩
  exact List.ne_nil_of_mem hmem

end Invariant

section Results
variable {strand : Bool} {s : Run}

lemma sound_of_reachable (h : Reachable Run.step Allowed (initial strand) s) : Sound s :=
  h.invariant (sound_initial strand) fun _ _ hs he => hs.step he

lemma busy_of_reachable (h : Reachable Run.step Allowed (initial strand) s) : Busy s :=
  h.invariant (busy_initial strand) fun _ e hs _ => hs.step e

/-- Every started job precedes those that waited with it, every enqueued job is in exactly one of
the queue, the starts and the discarded jobs, and a job waits only behind an outstanding one. -/
theorem first_come_first_served (h : Reachable Run.step Allowed (initial strand) s) :
    (∀ start ∈ s.started, start.entry ∈ start.waiting ∧ ∀ e ∈ start.waiting,
        start.entry.priority ≤ e.priority ∧
          (start.entry.priority = e.priority → start.entry.job ≤ e.job)) ∧
      s.startedJobs.Nodup ∧
      s.enqueued.map Entry.job = List.range s.enqueued.length ∧
      (s.guard.jobs ++ s.started.map Start.entry ++ s.discarded).Perm s.enqueued ∧
      (s.guard.jobs ≠ [] → s.outstanding ≠ []) := by
  have hsound := sound_of_reachable h
  have hnodup := hsound.nodup
  simp only [Run.history, List.map_append, List.append_assoc, List.map_map] at hnodup
  have hstarted := (List.nodup_append.mp (List.nodup_append.mp hnodup).2.1).1
  refine ⟨?_, hstarted, hsound.numbered, hsound.partition, ?_⟩
  · intro start hstart
    obtain ⟨hmem, hfirst⟩ := hsound.first start hstart
    refine ⟨hmem, ?_⟩
    intro e he
    rcases hfirst e he with rfl | hbefore
    · exact ⟨BitVec.le_refl _, fun _ => le_rfl⟩
    · unfold Before at hbefore
      constructor
      · bv_omega
      · bv_omega
  · intro hwait
    exact hsound.outstanding_of_active (busy_of_reachable h hwait)

/-- The jobs of priorities 10, 20 and 5, the first of which starts at once. -/
theorem first_come_first_served_priorities :
    let s := [Event.enqueue 10 true, .enqueue 20 true, .enqueue 5 true, .complete 0 true,
      .complete 2 true].foldl Run.step (initial false)
    s.startedJobs = [0, 2, 1] ∧ s.startedJobs.Nodup := by
  have hreachable : Reachable Run.step Allowed (initial false) _ :=
    reachable_foldl .start [.enqueue 10 true, .enqueue 20 true, .enqueue 5 true, .complete 0 true,
      .complete 2 true] (by decide)
  exact ⟨by decide, (first_come_first_served hreachable).2.1⟩

end Results

section Serialization

/-- A job is enqueued while the guard is active or no started job is outstanding. -/
def Serial (s : Run) : Event → Prop
  | .enqueue _ _ => s.guard.active = true ∨ s.outstanding = []
  | _ => True

instance (s : Run) (e : Event) : Decidable (Serial s e) := by
  cases e <;> unfold Serial <;> infer_instance

def OneAtATime (s : Run) : Prop := s.outstanding.length ≤ 1

instance (s : Run) : Decidable (OneAtATime s) := inferInstanceAs (Decidable (_ ≤ _))

variable {s : Run}

lemma Sound.outstanding_start (h : Sound s) {e : Entry} (he : e ∈ s.guard.jobs) {t : Run}
    {waiting : List Entry} (hstarted : t.started = s.started ++ [⟨e, waiting⟩])
    (hcompleted : t.completed = s.completed) : t.outstanding = s.outstanding ++ [e.job] := by
  have hopen : e.job ∉ s.completed := fun hdone =>
    h.not_started he (h.completed _ hdone)
  simp [Run.outstanding, Run.startedJobs, hstarted, hcompleted, List.filter_append, hopen]

lemma Sound.pump_one (h : Sound s) (hone : OneAtATime s)
    (hidle : s.guard.active = true ∨ s.outstanding = []) (onStrand : Bool) :
    OneAtATime (s.pump onStrand) := by
  rcases pump_cases s onStrand with ⟨hsame, _⟩ | ⟨entry, jobs, posted, hactive, hjobs, hstart⟩
  · rwa [hsame]
  · have hout := h.outstanding_start (e := entry) (t := s.pump onStrand) (by simp [hjobs])
      (by rw [hstart]) (by rw [hstart])
    rcases hidle with htrue | hnone
    · rw [hactive] at htrue
      cases htrue
    · simp [OneAtATime, hout, hnone]

lemma outstanding_release (hone : OneAtATime s) {job : ℕ} (hjob : job ∈ s.outstanding) :
    (s.release job).outstanding = [] := by
  have hsingle : s.outstanding = [job] := by
    obtain ⟨x, hx⟩ := List.length_eq_one_iff.mp
      (le_antisymm hone (List.length_pos_of_mem hjob))
    rw [hx] at hjob ⊢
    rw [List.mem_singleton.mp hjob]
  rw [List.eq_nil_iff_forall_not_mem]
  intro other hother
  simp only [Run.outstanding, Run.release, List.mem_filter, List.mem_append, decide_eq_true_eq,
    List.mem_singleton, not_or] at hother
  have hmem : other ∈ s.outstanding := by
    simp only [Run.outstanding, List.mem_filter, decide_eq_true_eq]
    exact ⟨hother.1, hother.2.1⟩
  rw [hsingle] at hmem
  exact hother.2.2 (List.mem_singleton.mp hmem)

structure Single (s : Run) : Prop where
  sound : Sound s
  one : OneAtATime s

lemma single_initial (strand : Bool) : Single (initial strand) :=
  ⟨sound_initial strand, Nat.zero_le 1⟩

lemma Single.step (h : Single s) {e : Event} (he : Allowed s e) (hserial : Serial s e) :
    Single (s.step e) := by
  obtain ⟨hsound, hone⟩ := h
  refine ⟨hsound.step he, ?_⟩
  cases e with
  | enqueue priority onStrand =>
    exact (hsound.insert priority).pump_one hone hserial onStrand
  | clear => exact hone
  | reset => exact hone
  | run job => exact hone
  | complete job onStrand =>
    have hnone := outstanding_release hone he.1
    refine (hsound.release (List.mem_filter.mp he.1).1).pump_one ?_ (Or.inr hnone) onStrand
    rw [OneAtATime, hnone]
    exact Nat.zero_le 1

lemma not_one_step (h : Sound s) {e : Event} (hserial : ¬ Serial s e) :
    ¬ OneAtATime (s.step e) := by
  cases e with
  | enqueue priority onStrand =>
    simp only [Serial, not_or, Bool.not_eq_true] at hserial
    obtain ⟨hinactive, hopen⟩ := hserial
    have hjobs : (s.insert priority).guard.jobs ≠ [] := by
      have hlength := (insertEntry_perm ⟨priority, s.enqueued.length⟩ s.guard.jobs).length_eq
      exact List.ne_nil_of_length_pos (by rw [Run.insert, Guard.insert, hlength]; simp)
    rcases pump_cases (s.insert priority) onStrand with
      ⟨_, hbusy⟩ | ⟨entry, jobs, posted, _, hqueue, hstart⟩
    · have hactive : s.guard.active = true := hbusy hjobs
      rw [hinactive] at hactive
      cases hactive
    · have hstarted := (h.insert priority).outstanding_start (e := entry)
        (t := s.step (.enqueue priority onStrand)) (by simp [hqueue]) (by rw [Run.step, hstart])
        (by rw [Run.step, hstart])
      have hopened : (s.insert priority).outstanding ≠ [] := hopen
      have hpos := List.length_pos_of_ne_nil hopened
      simp only [OneAtATime, hstarted, List.length_append, List.length_singleton]
      omega
  | clear => exact absurd trivial hserial
  | reset => exact absurd trivial hserial
  | run job => exact absurd trivial hserial
  | complete job onStrand => exact absurd trivial hserial

/-- One job is outstanding at a time exactly in the runs that enqueue nothing between a clear or
reset that finds a job running and the completion of that job. -/
theorem one_at_a_time_iff (strand : Bool) (events : List Event)
    (h : Admitted Run.step Allowed (initial strand) events) :
    (∀ before, before <+: events → OneAtATime (before.foldl Run.step (initial strand))) ↔
      Admitted Run.step Serial (initial strand) events :=
  forall_prefix_iff_admitted (single_initial strand) (fun _ hs => hs.one)
    (fun _ _ hs he hserial => hs.step he hserial)
    (fun _ _ hs _ hserial => not_one_step hs.sound hserial) events h

/-- The second job is enqueued while the first one runs, and the guard is cleared afterwards. -/
theorem one_at_a_time_cleared :
    let events : List Event := [.enqueue 0 true, .enqueue 0 true, .clear, .complete 0 true,
      .enqueue 0 true]
    ∀ before, before <+: events → OneAtATime (before.foldl Run.step (initial false)) :=
  (one_at_a_time_iff false [.enqueue 0 true, .enqueue 0 true, .clear, .complete 0 true,
    .enqueue 0 true] (by decide)).mpr (by decide)

/-- A clear while a job runs lets the next one start beside it. -/
theorem two_outstanding :
    ¬ ∀ (strand : Bool) (events : List Event),
      Admitted Run.step Allowed (initial strand) events →
        ∀ before, before <+: events → OneAtATime (before.foldl Run.step (initial strand)) := by
  intro hall
  have hone := hall false [.enqueue 0 true, .clear, .enqueue 0 true] (by decide) _
    (List.prefix_refl _)
  exact absurd hone (by decide)

end Serialization

end ReliableUdp.SendGuard
