import DanbyteOutpost.Agent.Cadence

/-!
# The passes of the loop

A pass polls for checks first; what else there is to do comes after a batch that ended well. The
places of the loop are ranked by how many steps there can be to the end of the sleep that ends the
pass, so every pass is short whatever the core answers, and a batch that ended well is good for one
SNMP cycle, one sweep and one later `hello` at most, in its own pass. While the batches fail, there
is none of them.

## The rank

`Pc.rank` is the number of steps that can be left to the end of the sleep of this pass, and
`Counts.steps` is how many there were since the last sleep was over. `Counted` says that the two
together stay within what a pass may take (`mostSteps`), along with what a served batch allows;
every step raises the one and lowers the other (`counted_step`). The lane's own steps are not the
loop's, and count for nothing.
-/

namespace Outpost

variable {ι ν : Type} {env : Env} {a a' : Agent ι ν}

/-- The steps of the loop there can be from here to the end of the pass. -/
def Pc.rank : Pc ι ν → ℕ
  | .hello true => 22
  | .updating true => 21
  | .fetching .checks => 20
  | .checking _ _ => 19
  | .naming _ _ => 18
  | .posting _ _ => 17
  | .reading (.due .snmp) => 16
  | .fetching (.duty .snmp) => 15
  | .cycling .snmp _ _ => 14
  | .reporting .snmp _ _ => 13
  | .reading (.next .snmp) => 12
  | .reading (.due .sweep) => 11
  | .fetching (.duty .sweep) => 10
  | .cycling .sweep _ _ => 9
  | .reporting .sweep _ _ => 8
  | .reading (.next .sweep) => 7
  | .reading .helloDue => 6
  | .hello false => 5
  | .updating false => 4
  | .reading .helloNext => 3
  | .backingOff | .sleeping => 2
  | .closing _ => 1
  | .ended _ => 0

/-- What is counted of a pass: the steps of the loop since the last sleep was over, the batches that
ended well, and what has been started after them. `first` says that there has been no sleep yet. -/
structure Counts where
  /-- There has been no sleep yet. -/
  first : Bool := true
  /-- The steps of the loop since the last sleep, the lane's not counted. -/
  steps : ℕ := 0
  /-- The batches that ended well since then. -/
  served : ℕ := 0
  /-- The SNMP cycles started since then. -/
  snmp : ℕ := 0
  /-- The sweeps started since then. -/
  sweep : ℕ := 0
  /-- The later `hello`s sent since then. -/
  hellos : ℕ := 0

/-- The end of a sleep begins a new pass. The steps of the lane are none of the loop's. -/
def count (a : Agent ι ν) (e : Event ι ν) (c : Counts) : Counts :=
  match e with
  | .lane _ => c
  | .slept => { first := false }
  | .clock now =>
    let c := { c with steps := c.steps + 1 }
    match a.pc with
    | .reading (.due .snmp) => if a.snmp.next ≤ now then { c with snmp := c.snmp + 1 } else c
    | .reading (.due .sweep) => if a.sweep.next ≤ now then { c with sweep := c.sweep + 1 } else c
    | .reading .helloDue => if a.nextHello ≤ now then { c with hellos := c.hellos + 1 } else c
    | _ => c
  | e =>
    { c with
      steps := c.steps + 1
      served := c.served + (a.served? e).toList.length }

/-- The steps of a pass up to its end; the first has those of the first `hello` before it. -/
def mostSteps (first : Bool) : ℕ := if first then 22 else 20

/-- The counts of the pass agree with where the loop is: from 17 on it is at the batch, at 16 before
the SNMP cycle, down to 11 before the sweep and down to 6 before the `hello`. -/
structure Counted (a : Agent ι ν) (c : Counts) : Prop where
  /-- Each step takes the loop down by one rank at least, so the steps made and those left are
  bounded together. -/
  steps : c.steps + a.pc.rank ≤ mostSteps c.first
  /-- A batch ends well once, and not before it has come to its end. -/
  served : c.served ≤ 1 ∧ (17 ≤ a.pc.rank → c.served = 0)
  /-- The SNMP cycle is started behind a batch that ended well, once. -/
  snmp : c.snmp ≤ c.served ∧ (a.pc.rank = 16 → c.snmp < c.served)
  /-- And so is the sweep. -/
  sweep : c.sweep ≤ c.served ∧ (11 ≤ a.pc.rank → a.pc.rank ≤ 16 → c.sweep < c.served)
  /-- And so is the later `hello`. -/
  hellos : c.hellos ≤ c.served ∧ (6 ≤ a.pc.rank → a.pc.rank ≤ 16 → c.hellos < c.served)

/-- A step that starts nothing: the loop gets on, and past the batch it gets to the end of the pass
only. -/
theorem Counted.move {c : Counts} (h : Counted a c) (hlt : a'.pc.rank < a.pc.rank)
    (hbatch : 17 ≤ a.pc.rank → 17 ≤ a'.pc.rank ∨ a'.pc.rank ≤ 5) :
    Counted a' { c with steps := c.steps + 1 } := by
  obtain ⟨hsteps, hserved, hsnmp, hsweep, hhellos⟩ := h
  constructor <;> dsimp only <;> omega

/-- The end of a batch that ended well. -/
theorem Counted.serve {c : Counts} (h : Counted a c) (hrank : 17 ≤ a.pc.rank)
    (hrank' : a'.pc.rank = 16) :
    Counted a' { c with steps := c.steps + 1, served := c.served + 1 } := by
  obtain ⟨hsteps, hserved, hsnmp, hsweep, hhellos⟩ := h
  constructor <;> dsimp only <;> omega

/-- The top of the loop, after a sleep. -/
theorem counted_wake (hrank : a'.pc.rank = 20 ∨ a'.pc.rank = 1) :
    Counted a' { first := false } := by
  constructor <;> simp only [mostSteps] <;> grind

/-- From the top of the loop there are twenty steps to go, or the loop is over. -/
theorem rank_top (a : Agent ι ν) : a.top.pc.rank = 20 ∨ a.top.pc.rank = 1 := by
  obtain ⟨_, _, h, rfl | rfl⟩ := top_eq a <;> rw [h]
  · exact .inl rfl
  · exact .inr rfl

/-- Before the sleep there are two, at most. -/
theorem rank_rest (a : Agent ι ν) : a.rest.pc.rank ≤ 2 := by
  obtain ⟨_, _, h, rfl | rfl⟩ := rest_eq a <;> rw [h] <;> simp [Pc.rank]

/-- The steps by which the loop gets on, from one place to another. -/
theorem Counted.moveTo {c : Counts} (h : Counted a c) {pc : Pc ι ν} (hpc : a.pc = pc)
    (hmove : a'.pc.rank < pc.rank ∧ (17 ≤ pc.rank → 17 ≤ a'.pc.rank ∨ a'.pc.rank ≤ 5)) :
    Counted a' { c with steps := c.steps + 1 } :=
  h.move (hpc ▸ hmove.1) (hpc ▸ hmove.2)

theorem count_fetched (answer : Option Json) (c : Counts) :
    count a (.fetched answer) c = { c with
      steps := c.steps + 1
      served := c.served + (a.served? (.fetched answer)).toList.length } := rfl

theorem count_posted (ok : Bool) (c : Counts) :
    count a (.posted ok) c = { c with
      steps := c.steps + 1
      served := c.served + (a.served? (.posted ok)).toList.length } := rfl

/-- A reading of the clock that starts nothing. -/
theorem Counted.tick {now : Binary64} {c : Counts} (h : Counted a c)
    (hcount : count a (.clock now) c = { c with steps := c.steps + 1 })
    (hle : a.pc.rank ≤ 16) (hlt : a'.pc.rank < a.pc.rank) :
    Counted a' (count a (.clock now) c) := by
  rw [hcount]
  exact h.move hlt fun h17 ↦ by omega

/-- The readings of the clock: what they start is counted. -/
theorem counted_clock {what : Reading} {now : Binary64} {c : Counts} (h : Counted a c)
    (hpc : a.pc = .reading what) (hends : ReadEnds a now what a') :
    Counted a' (count a (.clock now) c) := by
  have hrest : ∀ b : Agent ι ν, b.rest.pc.rank ≤ 2 := rank_rest
  cases hends with
  -- a cycle begins, which a served batch has asked for, or an interval
  | begin d hdue =>
    obtain ⟨hsteps, hserved, hsnmp, hsweep, hhellos⟩ := h
    cases d with
    | snmp =>
      have hsnmpDue : a.snmp.next ≤ now := hdue
      have hrank : a.pc.rank = 16 := congrArg Pc.rank hpc
      have hrank' : (Pc.fetching (.duty .snmp) : Pc ι ν).rank = 15 := rfl
      simp only [count, hpc, if_pos hsnmpDue]
      constructor <;> dsimp only <;> omega
    | sweep =>
      have hsweepDue : a.sweep.next ≤ now := hdue
      have hrank : a.pc.rank = 11 := congrArg Pc.rank hpc
      have hrank' : (Pc.fetching (.duty .sweep) : Pc ι ν).rank = 10 := rfl
      simp only [count, hpc, if_pos hsweepDue]
      constructor <;> dsimp only <;> omega
  | hello hdue =>
    obtain ⟨hsteps, hserved, hsnmp, hsweep, hhellos⟩ := h
    have hrank : a.pc.rank = 6 := congrArg Pc.rank hpc
    have hrank' : (Pc.hello false : Pc ι ν).rank = 5 := rfl
    simp only [count, hpc, if_pos hdue]
    constructor <;> dsimp only <;> omega
  -- it is not due, so the loop goes on to what comes behind it
  | skip d hlt =>
    cases d with
    | snmp =>
      have hsnmpLater : ¬ a.snmp.next ≤ now := not_le.2 hlt
      refine h.tick (by simp only [count, hpc, if_neg hsnmpLater]) ?_ ?_ <;> rw [hpc] <;>
        simp [Pc.rank, Duty.after]
    | sweep =>
      have hsweepLater : ¬ a.sweep.next ≤ now := not_le.2 hlt
      refine h.tick (by simp only [count, hpc, if_neg hsweepLater]) ?_ ?_ <;> rw [hpc] <;>
        simp [Pc.rank, Duty.after]
  | next d =>
    refine h.tick (by simp only [count, hpc]) ?_ ?_ <;> rw [hpc] <;>
      cases d <;> simp [Pc.rank, Duty.after]
  | overflow d =>
    refine h.tick (by simp only [count, hpc]) ?_ ?_ <;> rw [hpc] <;> cases d <;> simp [Pc.rank]
  | noHello hlt =>
    refine h.tick (by simp only [count, hpc, if_neg (not_le.2 hlt)]) ?_ ?_
    · rw [hpc]
      simp [Pc.rank]
    · rw [hpc]
      exact (hrest a).trans_lt (by simp [Pc.rank])
  | helloNext =>
    refine h.tick (by simp only [count, hpc]) ?_ ?_
    · rw [hpc]
      simp [Pc.rank]
    · rw [hpc]
      exact (hrest _).trans_lt (by simp [Pc.rank])

/-- The loop sleeps. -/
def Pc.slumber : Pc ι ν → Bool
  | .backingOff | .sleeping => true
  | _ => false

theorem rank_of_slumber {pc : Pc ι ν} (h : pc.slumber = true) : pc.rank = 2 := by
  unfold Pc.slumber at h
  split at h
  · rfl
  · rfl
  · cases h

/-- Wherever the loop can be cancelled there are two to go at least, those of the `finally`. -/
theorem rank_of_cancellable {pc : Pc ι ν} (h : pc.cancellable = true) : 2 ≤ pc.rank := by
  unfold Pc.rank
  split <;> first | decide | cases h

/-- The step lemma: each step is counted and takes one from the rank, but for the end of a sleep,
which starts the counts again. -/
theorem counted_step {e : Event ι ν} {c : Counts} (h : Counted a c)
    (hstep : a.step env e = some a') : Counted a' (count a e c) := by
  -- whatever comes to the top of the loop begins a pass
  have htop : ∀ {pc : Pc ι ν} {b : Agent ι ν}, a.pc = pc → 21 ≤ pc.rank →
      Counted b.top { c with steps := c.steps + 1 } := by
    intro pc b hpc hrank
    refine h.moveTo hpc ?_
    rcases rank_top b with h | h <;> omega
  cases steps_of_step hstep with
  | lane => exact ⟨h.steps, h.served, h.snmp, h.sweep, h.hellos⟩
  | @helloed startup _ _ hpc hends =>
    cases hends with
    | top info poll => exact htop hpc (by simp [Pc.rank])
    | updating => exact h.moveTo hpc (by cases startup <;> simp [Pc.rank])
    | next => exact h.moveTo hpc (by simp [Pc.rank])
  | @replaced startup hpc => exact h.moveTo hpc (by cases startup <;> simp [Pc.rank])
  | @notReplaced startup hpc =>
    cases startup with
    | true => exact htop hpc (by simp [Pc.rank])
    | false => exact h.moveTo hpc (by simp [Agent.helloFailed, Pc.rank])
  | work hpc hends =>
    -- a batch without checks is served at once
    rw [count_fetched]
    cases hends with
    | failed hnone =>
      rw [served?_fetched hpc fun work h ↦ by rw [hnone work h]; simp]
      exact h.moveTo hpc (by simp [Pc.rank])
    | empty work hanswer hempty =>
      subst hanswer
      rw [served?_empty hpc hempty]
      exact h.serve (by rw [hpc]; simp [Pc.rank]) rfl
    | checking work items hanswer hitems hne =>
      rw [served?_fetched hpc fun work' h ↦ by
        rw [hanswer, Option.some.injEq] at h
        rw [← h, hitems]
        simpa using hne]
      exact h.moveTo hpc (by simp [Pc.rank])
  | @dutyWork d _ _ hpc hends =>
    rw [count_fetched, served?_duty hpc]
    cases hends <;> exact h.moveTo hpc (by cases d <;> simp [Pc.rank])
  | posted hpc =>
    rw [count_posted, served?_posted hpc]
    exact h.serve (by rw [hpc]; simp [Pc.rank]) rfl
  | @reported d _ _ hpc =>
    rw [count_posted, served?_reported hpc]
    exact h.moveTo hpc (by cases d <;> simp [Pc.rank])
  | @notReported d _ _ hpc => exact h.moveTo hpc (by cases d <;> simp [Pc.rank])
  | checked hpc _ hends => cases hends <;> exact h.moveTo hpc (by simp [Pc.rank])
  | polled hpc _ hends | swept hpc hends => cases hends <;> exact h.moveTo hpc (by simp [Pc.rank])
  | unnamed hpc | named hpc | notPosted hpc | closed hpc => exact h.moveTo hpc (by simp [Pc.rank])
  | clock hpc hends => exact counted_clock h hpc hends
  -- the end of a sleep begins the count anew
  | slept => exact counted_wake (rank_top a)
  | stop hcan =>
    refine h.move ?_ fun _ ↦ .inr (by simp [Pc.rank])
    have hrank : 2 ≤ a.pc.rank := rank_of_cancellable hcan
    exact hrank

/-- **The passes.** In every state of every run, the loop has taken at most 20 steps since its last
sleep was over, and at most 18 where it sleeps again; one batch at most has ended well since then,
and only if one did, an SNMP cycle, a sweep and a later `hello` have been started, one of each at
most. Before the first sleep there are two steps more.

`Pc.rank` counts the steps from each point of the loop to its sleep. -/
theorem passes_bounded {pollSeconds : ℤ} {start : Binary64} {es : List (Event ι ν)}
    (hrun : (agent env).exec (.init pollSeconds start) es = some a) :
    let c := (agent env).observe count (.init pollSeconds start) es {}
    c.steps ≤ mostSteps c.first ∧ (a.pc.slumber = true → c.steps + 2 ≤ mostSteps c.first) ∧
      c.served ≤ 1 ∧ c.snmp ≤ c.served ∧ c.sweep ≤ c.served ∧ c.hellos ≤ c.served := by
  have h := (agent env).exec_invariant (P := fun _ _ ↦ True) (f := count) (I := Counted)
    (fun _ _ _ _ _ hc hstep ↦ counted_step hc hstep) (h := {}) (Machine.meets_true _ es)
    (by constructor <;> simp [Agent.init, Pc.rank, mostSteps]) hrun
  refine ⟨(Nat.le_add_right _ _).trans h.steps, fun hsleeps ↦ ?_, h.served.1, h.snmp.1, h.sweep.1,
    h.hellos.1⟩
  rw [← rank_of_slumber hsleeps]
  exact h.steps

/-- The one pass of the run, up to its sleep: a batch, both cycles and a `hello`. -/
theorem passes_bounded_onePass :
    ∃ a, (agent lab).exec (.init 15 0) (onePass.take 14) = some a ∧
      ((agent lab).observe count (.init 15 0) (onePass.take 14) {}).steps + 2 ≤ 22 ∧
      ((agent lab).observe count (.init 15 0) (onePass.take 14) {}).sweep ≤ 1 := by
  have hsleeps : ((agent lab).exec (.init 15 0) (onePass.take 14)).map (·.pc.slumber) =
      some true := by decide +kernel
  obtain ⟨a, hrun, hslumber⟩ := Option.map_eq_some_iff.1 hsleeps
  obtain ⟨-, hsteps, hserved, -, hsweep, -⟩ := passes_bounded hrun
  exact ⟨a, hrun, (hsteps hslumber).trans (by decide +kernel), hsweep.trans hserved⟩

end Outpost
