import DanbyteOutpost.Snmp.ContextLists
import DanbyteOutpost.Snmp.DefaultRead
import DanbyteOutpost.Snmp.Mib
import Mathlib.Data.Multiset.Filter

/-!
# Reads that have halted

What is still asked once a walk of the default context has timed out. While the default context is
read, nothing (`Quiet`). While the contexts of VLANs are, it depends: neither the gate nor
`_read_context` looks at `halted`, so only where no gate is open and no context is in its base-port
walk are the walks under way all there is (`Winding`).

That no walk is begun (`BeginsNone`) is said of every later state anew: what is asked behind it
belongs to the walks under way in that very state. A request names a context and a table, not the
task it is made for; but a walk of a table begun by one task after that of another has ended is a
walk under way later that was not under way at some state between, and so is ruled out too.

## The statements

* `no_walk_behind_timeout`: nothing is asked behind a walk of the default context that timed out;
  and of the contexts of VLANs, no walk is begun from a halted state that is `Winding`, since from
  there on a crew can only ebb (`EbbStep`).
* `context_behind_timeout`: an agent whose stack walk, made from a VLAN's context, times out, and
  which is still asked for another VLAN's tables.
* `no_context_behind_timeout`: a halted state with another VLAN's context in its table walk, which
  goes on while nothing else is begun.
-/

namespace Snmp

open Coop

/-- In a task there is a walk under way. -/
def MacRead.walking (rd : MacRead) (l : ContextStage) : Bool := (rd.walkAt l).isSome

/-- The walks under way. -/
def MacRead.underWay (rd : MacRead) (flight : Multiset ContextStage) : Multiset ContextStage :=
  flight.filter fun l ↦ rd.walking l = true

/-- Two requests for one table in one context. -/
def SameWalk (q q' : Query) : Prop :=
  q'.access = q.access ∧ ∃ columns ∈ [baseColumns, dFdbColumns, stackColumns],
    (MacRead.call columns q.access false macMaxRepetitions).Sends q ∧
      (MacRead.call columns q.access false macMaxRepetitions).Sends q'

/-- A state of the contexts from which no walk is begun: no gate is open, and no context is in its
base-port walk. -/
structure Winding (pool : Pool (net Outcome) ReadState) : Prop where
  /-- No task waits at a gate that would let it through. -/
  gates : pool.queue = [] ∨ pool.st.contexts.aborted ≠ [] ∨ pool.st.budget.truncated = true
  /-- A context in its base-port walk would begin another one behind it. -/
  ports : ∀ p ∈ pool.parked, ∀ access,
    ¬ (MacRead.call baseColumns access false macMaxRepetitions).Sends p.query

variable {rd : MacRead} {fuel : ℕ} {allowed : Allowed (net Outcome)} {cap : ℕ}
  {crew crew' : ContextCrew}

/-- Two requests of a task at one stage are of the same walk. -/
theorem sameWalk_of_asks {l : ContextStage} {q q' : Query} (h : rd.AsksAt l q)
    (h' : rd.AsksAt l q') : SameWalk q q' := by
  obtain ⟨⟨access, columns⟩, hl, hsends⟩ := h
  obtain ⟨walk, hl', hsends'⟩ := h'
  obtain rfl : walk = (access, columns) := Option.some.inj (hl'.symm.trans hl)
  have haccess : q.access = access := hsends.access
  refine ⟨hsends'.access.trans haccess.symm, columns, ?_, haccess ▸ hsends, haccess ▸ hsends'⟩
  cases l with
  | ports | table | stack =>
    obtain rfl := (Prod.mk.inj (Option.some.inj hl)).2
    simp only [List.mem_cons, true_or, or_true]
  | gate | learned | read => cases hl

/-- What comes of such a state once the read has halted, with the walks of `walks` under way. -/
structure Ebbing (rd : MacRead) (walks : Multiset ContextStage) (log : Log (net Outcome))
    (crew : ContextCrew) : Prop where
  /-- It stays halted. -/
  halted : crew.world.st.halted = true
  /-- No gate comes to be open. -/
  gates : (crew.queue = [] ∧ ∀ l ∈ crew.flight, l.passed = true) ∨
    crew.world.st.contexts.aborted ≠ [] ∨ crew.world.st.budget.truncated = true
  /-- A task that is not started has its gate before it. -/
  waiting : ∀ l ∈ crew.queue, l.passed = false
  /-- No context comes to be in its base-port walk. -/
  ports : ∀ vid, .ports vid ∉ crew.flight
  /-- Every request since belongs to one of the walks. -/
  log : ∃ new, crew.world.log = new ++ log ∧
    ∀ q r, .asked q r ∈ new → ∃ l ∈ walks, rd.AsksAt l q
  /-- Those under way are some of them. -/
  flight : rd.underWay crew.flight ≤ walks

theorem underWay_cons_le (l : ContextStage) (flight : Multiset ContextStage) :
    rd.underWay flight ≤ rd.underWay (l ::ₘ flight) :=
  Multiset.filter_le_filter _ (Multiset.le_cons_self _ _)

theorem underWay_cons_of_not {l : ContextStage} (h : rd.walking l = false)
    (flight : Multiset ContextStage) : rd.underWay (l ::ₘ flight) = rd.underWay flight :=
  Multiset.filter_cons_of_neg _ (by rw [h]; exact Bool.false_ne_true)

/-- What a step of a task does once the read has halted: it goes on with its walk, or has none. -/
structure EbbStep (rd : MacRead) (p p' : ContextPlace) : Prop where
  /-- No walk is begun. -/
  walks : p'.stage = p.stage ∨ rd.walking p'.stage = false
  /-- It logs one event at most, and a request only of its own walk. -/
  log : p'.world.log = p.world.log ∨ ∃ e, p'.world.log = e :: p.world.log ∧
    ∀ q r, e = .asked q r → rd.AsksAt p.stage q

/-- Past its gate and its base ports, a task of a halted read asks for nothing but what its walk
goes on with. -/
theorem MacRead.ContextStep.ebbs {p p' : ContextPlace} (h : ContextStep rd fuel allowed p p')
    (hpassed : p.stage.passed = true) (hhalted : p.world.st.halted = true)
    (hports : ∀ vid, p.stage ≠ .ports vid) : EbbStep rd p p' := by
  cases h with
  | passed => exact absurd hpassed Bool.false_ne_true
  | polled => exact ⟨.inl rfl, .inr ⟨_, rfl, nofun⟩⟩
  | asked l w q r hq =>
    refine ⟨.inl rfl, .inr ⟨_, rfl, ?_⟩⟩
    rintro q' r' ⟨⟩
    exact hq
  | row => exact ⟨.inl rfl, .inl rfl⟩
  | portsFailed vid => exact absurd rfl (hports vid)
  | portsRead vid => exact absurd rfl (hports vid)
  | tableRead vid base w w' out hend =>
    have hlog := hend.frame.2
    exact ⟨.inr rfl, .inr ⟨_, hlog, nofun⟩⟩
  | plain | folded | halted => exact ⟨.inr rfl, .inl rfl⟩
  | late vid ok rows failure w hlogical hstack hgoes
  | stackBegun vid ok rows failure w hlogical hstack hgoes =>
    exact absurd (hgoes.symm.trans hhalted) Bool.false_ne_true
  | stackRead vid ok rows failure w w' out hend =>
    have hlog := hend.frame.2
    exact ⟨.inr rfl, .inr ⟨_, hlog, nofun⟩⟩

theorem walking_of_asks {l : ContextStage} {q : Query} (h : rd.AsksAt l q) :
    rd.walking l = true :=
  MacRead.walkAt_of_asks h

namespace Ebbing

variable {walks : Multiset ContextStage} {log : Log (net Outcome)} {queue : List ContextStage}
  {flight : Multiset ContextStage} {l l' : ContextStage} {w w' : World (net Outcome) ReadState}

/-- A task is started: it comes to its gate. -/
theorem start (h : Ebbing rd walks log ⟨l :: queue, flight, w⟩) :
    Ebbing rd walks log ⟨queue, l ::ₘ flight, w⟩ := by
  obtain ⟨vid₀, rfl⟩ := eq_gate (h.waiting l List.mem_cons_self)
  have hidle : rd.walking (.gate vid₀) = false := rfl
  refine ⟨h.halted, .inr (h.gates.resolve_left fun hnone ↦ List.cons_ne_nil _ _ hnone.1),
    fun l' hl' ↦ h.waiting l' (List.mem_cons_of_mem _ hl'), fun vid hvid ↦ ?_, h.log, ?_⟩
  · exact h.ports vid ((Multiset.mem_cons.1 hvid).resolve_left nofun)
  · show rd.underWay (.gate vid₀ ::ₘ flight) ≤ walks
    rw [underWay_cons_of_not hidle]
    exact h.flight

/-- A task goes on. -/
theorem go (h : Ebbing rd walks log ⟨queue, l ::ₘ flight, w⟩)
    (hstep : MacRead.ContextStep rd fuel allowed ⟨l, w⟩ ⟨l', w'⟩) :
    Ebbing rd walks log ⟨queue, l' ::ₘ flight, w'⟩ := by
  have hframe := hstep.frame
  have hl : l ∈ l ::ₘ flight := Multiset.mem_cons_self _ _
  -- where gates may open nobody waits at one, and where they may not the task is past its own
  have hpassed : l.passed = true := by
    rcases h.gates with ⟨-, hall⟩ | hclosed
    · exact hall l hl
    · exact hstep.passed_of_closed hclosed
  have hports : ∀ vid, l ≠ .ports vid := fun vid heq ↦ h.ports vid (heq ▸ hl)
  have hebbs := hstep.ebbs hpassed h.halted hports
  have hcontexts : w'.st.contexts = w.st.contexts := hframe.contexts
  have hpassed' : l'.passed = true := hframe.passed
  refine ⟨hframe.halted h.halted, ?_, h.waiting, fun vid hvid ↦ ?_, ?_, ?_⟩
  · refine h.gates.imp (fun hnone ↦ ⟨hnone.1, fun l₁ hl₁ ↦ ?_⟩)
      (Or.imp (fun hne ↦ ?_) fun hcut ↦ ?_)
    · rcases Multiset.mem_cons.1 hl₁ with rfl | hl₁
      · exact hpassed'
      · exact hnone.2 l₁ (Multiset.mem_cons_of_mem hl₁)
    · show w'.st.contexts.aborted ≠ []
      rw [hcontexts]
      exact hne
    · exact hframe.truncated hcut
  · -- only a gate leads to a base-port walk
    rcases Multiset.mem_cons.1 hvid with heq | hvid
    · rcases hebbs.walks with hsame | hidle
      · exact hports vid (hsame.symm.trans heq.symm)
      · have hidle' : rd.walking (.ports vid) = false := heq ▸ hidle
        cases hidle'
    · exact h.ports vid (Multiset.mem_cons_of_mem hvid)
  -- what is asked belongs to the walk of the task that asks
  · obtain ⟨new, hnew, hall⟩ := h.log
    have hnew' : w.log = new ++ log := hnew
    rcases hebbs.log with hsame | ⟨e, he, hasks⟩
    · exact ⟨new, hsame.trans hnew', hall⟩
    · refine ⟨e :: new, he.trans (congrArg (e :: ·) hnew'), fun q r hqr ↦ ?_⟩
      rcases List.mem_cons.1 hqr with heq | hqr
      · have hq : rd.AsksAt l q := hasks q r heq.symm
        exact ⟨l, Multiset.mem_of_le h.flight
          (Multiset.mem_filter.2 ⟨hl, walking_of_asks hq⟩), hq⟩
      · exact hall q r hqr
  · show rd.underWay (l' ::ₘ flight) ≤ walks
    have hbefore : rd.underWay (l ::ₘ flight) ≤ walks := h.flight
    rcases hebbs.walks with hsame | hidle
    · have hsame' : l' = l := hsame
      rwa [hsame']
    · rw [underWay_cons_of_not hidle]
      exact (underWay_cons_le l flight).trans hbefore

/-- A task ends. -/
theorem stop (h : Ebbing rd walks log ⟨queue, l ::ₘ flight, w⟩)
    (hstop : MacRead.ContextStop allowed ⟨l, w⟩ w') : Ebbing rd walks log ⟨queue, flight, w'⟩ := by
  have hports : ∀ vid, .ports vid ∉ flight :=
    fun vid hvid ↦ h.ports vid (Multiset.mem_cons_of_mem hvid)
  have hwalks : rd.underWay flight ≤ walks := (underWay_cons_le l flight).trans h.flight
  have hgates := h.gates.imp_left fun hnone ↦
    And.intro hnone.1 fun l' hl' ↦ hnone.2 l' (Multiset.mem_cons_of_mem hl')
  cases hstop with
  | stopped => exact ⟨h.halted, hgates, h.waiting, hports, h.log, hwalks⟩
  | late vid w haborted huncut =>
    -- no gate is open
    rcases h.gates with ⟨-, hall⟩ | hne | hcut
    · exact absurd (hall (.gate vid) (Multiset.mem_cons_self _ _)) Bool.false_ne_true
    · exact absurd haborted hne
    · exact absurd (huncut.symm.trans hcut) Bool.false_ne_true
  | settled vid ok rows failure w =>
    refine ⟨halted_settle.trans h.halted,
      hgates.imp_right (Or.imp aborted_settle_ne_nil fun hcut ↦ ?_),
      h.waiting, hports, h.log, hwalks⟩
    exact (congrArg _ budget_settle).trans hcut

/-- The step lemma: walks go on or end, and none is begun. -/
theorem step (h : Ebbing rd walks log crew)
    (hstep : Crew.Step (rd.contextCourse fuel allowed) cap crew crew') :
    Ebbing rd walks log crew' := by
  cases hstep with
  | start => exact h.start
  | step hstep => exact h.go hstep
  | stop hstop => exact h.stop hstop

end Ebbing

/-! ### The whole read -/

/-- What follows on a state of the contexts belongs to the walks under way there: every request is
of one of them, and those under way later are some of them. -/
structure GoesOn (sur : Surroundings) (pool : Pool (net Outcome) ReadState) : Prop where
  /-- Every later request is of a walk that was under way. -/
  asked : ∀ pool', pool.Reaches sur.env macContextConcurrency pool' →
    ∃ new, pool'.log = new ++ pool.log ∧
      ∀ q r, .asked q r ∈ new → ∃ p ∈ pool.parked, SameWalk p.query q
  /-- Every later walk is one of those, and none of them is there twice. -/
  parked : ∀ pool', pool.Reaches sur.env macContextConcurrency pool' →
    ∃ before, before.Subperm pool.parked ∧
      List.Forall₂ (fun p p' ↦ SameWalk p.query p'.query) before pool'.parked

/-- From a state of the contexts on no walk is begun: in whatever state they come to, what follows
belongs to the walks under way in that state. -/
def BeginsNone (sur : Surroundings) (pool : Pool (net Outcome) ReadState) : Prop :=
  ∀ pool', pool.Reaches sur.env macContextConcurrency pool' → GoesOn sur pool'

/-- Where a crew ebbs, what the pool does from there on is what its tasks were at. -/
theorem goesOn_of_ebbing {sur : Surroundings} {pool : Pool (net Outcome) ReadState}
    {walks : Multiset ContextStage} {log : Log (net Outcome)}
    (hfollows : pool.Follows (rd.contextCourse fuel sur.env.allowed) crew)
    (hebbs : Ebbing rd walks log crew) : GoesOn sur pool := by
  obtain ⟨queue, flight, world⟩ := crew
  obtain ⟨hqueue, ⟨ls, hls, hparked⟩, hworld⟩ := id hfollows
  obtain rfl : world = ⟨pool.st, pool.log⟩ := hworld
  obtain rfl : ↑ls = flight := hls
  -- the walks are counted anew, from this state on
  have hebbing : Ebbing rd ↑ls pool.log ⟨queue, ls, ⟨pool.st, pool.log⟩⟩ :=
    ⟨hebbs.halted, hebbs.gates, hebbs.waiting, hebbs.ports, ⟨[], rfl, nofun⟩,
      Multiset.filter_le _ _⟩
  have hasks : ∀ l ∈ ls, ∃ p ∈ pool.parked, rd.AsksAt l p.query := by
    intro l hl
    obtain ⟨p, hp, hat⟩ := exists_of_mem_forall₂ hparked hl
    exact ⟨p, hp, hat.asks⟩
  -- what the pool comes to, the crew does
  have hlater : ∀ pool', pool.Reaches sur.env macContextConcurrency pool' → ∃ crew',
      pool'.Follows (rd.contextCourse fuel sur.env.allowed) crew' ∧
        Ebbing rd ↑ls pool.log crew' := by
    intro pool' hpool'
    obtain ⟨crew', hreaches', hfollows'⟩ :=
      Pool.follows_of_reaches sur.env.suits_allowed hfollows hpool'
    exact ⟨crew', hfollows', hreaches'.keeps (fun _ _ h hstep ↦ h.step hstep) hebbing⟩
  refine ⟨fun pool' hpool' ↦ ?_, fun pool' hpool' ↦ ?_⟩
  · obtain ⟨crew', hfollows', hebbing'⟩ := hlater pool' hpool'
    obtain ⟨new, hnew, hall⟩ := hebbing'.log
    rw [hfollows'.world] at hnew
    refine ⟨new, hnew, fun q r hqr ↦ ?_⟩
    obtain ⟨l, hl, hq⟩ := hall q r hqr
    obtain ⟨p, hp, hq'⟩ := hasks l hl
    exact ⟨p, hp, sameWalk_of_asks hq' hq⟩
  · obtain ⟨crew', hfollows', hebbing'⟩ := hlater pool' hpool'
    obtain ⟨-, ⟨ls', hls', hparked'⟩, -⟩ := hfollows'
    have hwalking : ∀ l ∈ ls', rd.walking l = true := by
      intro l hl
      obtain ⟨p, -, hat⟩ := exists_of_mem_forall₂ hparked' hl
      exact walking_of_asks hat.asks
    have hle : rd.underWay ↑ls' ≤ ↑ls := hls' ▸ hebbing'.flight
    rw [MacRead.underWay, Multiset.filter_eq_self.2 hwalking, Multiset.coe_le] at hle
    obtain ⟨before, hbefore, hpairs⟩ := forall₂_of_subperm hparked hle
    exact ⟨before, hbefore, forall₂_of_common (fun p l p' hat hat' ↦
      sameWalk_of_asks hat.asks hat'.asks) hpairs hparked'⟩

/-- Once the read has halted, and no gate is open nor any context in its base-port walk. -/
theorem beginsNone_of_winding {sur : Surroundings} {vlans : List ℤ} {s : ReadState}
    {log : Log (net Outcome)} {pool : Pool (net Outcome) ReadState}
    (hpool : rd.ContextsReach sur fuel vlans s log pool) (hhalted : pool.st.halted = true)
    (hwinding : Winding pool) : BeginsNone sur pool := by
  obtain ⟨crew, hreaches, hfollows⟩ := Pool.follows_of_reaches sur.env.suits_allowed
    (Pool.follows_start (MacRead.ones_take vlans) s log) hpool
  have hskips : Skips s.report.vlans.skipped (lateGates log) crew :=
    hreaches.keeps (fun _ _ h hstep ↦ h.step hstep) (skips_start vlans s log)
  obtain ⟨queue, flight, world⟩ := crew
  obtain ⟨hqueue, ⟨ls, hls, hparked⟩, hworld⟩ := id hfollows
  obtain rfl : world = ⟨pool.st, pool.log⟩ := hworld
  obtain rfl : ↑ls = flight := hls
  have hasks : ∀ l ∈ ls, ∃ p ∈ pool.parked, rd.AsksAt l p.query := by
    intro l hl
    obtain ⟨p, hp, hat⟩ := exists_of_mem_forall₂ hparked hl
    exact ⟨p, hp, hat.asks⟩
  have hebbing : Ebbing rd ↑ls pool.log ⟨queue, ls, ⟨pool.st, pool.log⟩⟩ := by
    refine ⟨hhalted, ?_, hskips.waiting, fun vid hvid ↦ ?_, ⟨[], rfl, nofun⟩,
      Multiset.filter_le _ _⟩
    · refine hwinding.gates.imp_left fun hnone ↦ ⟨?_, fun l hl ↦ ?_⟩
      · have hqueue' : List.Forall₂ _ pool.queue queue := hqueue
        rw [hnone] at hqueue'
        exact List.forall₂_nil_left_iff.1 hqueue'
      · obtain ⟨p, -, hp⟩ := hasks l hl
        exact (MacRead.passed_of_asks hp).1
    · obtain ⟨p, hp, walk, hl, hsends⟩ := hasks _ hvid
      obtain rfl := Option.some.inj hl
      exact hwinding.ports p hp _ hsends
  intro pool' hpool'
  obtain ⟨crew', hreaches', hfollows'⟩ :=
    Pool.follows_of_reaches sur.env.suits_allowed hfollows hpool'
  exact goesOn_of_ebbing hfollows' (hreaches'.keeps (fun _ _ h hstep ↦ h.step hstep) hebbing)

/-- While the default context is read, nothing comes behind a walk that timed out, and then no
context of a VLAN is read. If the read is halted while they are, no walk is begun from there on,
provided that no gate is open and no context is in its base-port walk.

`halted` is looked at before a lookup walk and not at the gate, nor between the two walks of a
context. The condition is on the state in which the read has halted: what was begun before goes
on. -/
theorem no_walk_behind_timeout (rd : MacRead) (sur : Surroundings) (fuel : ℕ) (now : ℚ)
    {plan : Plan} {s : ReadState} {log : Log (net Outcome)}
    (hread : (rd.read fuel).run sur.env (rd.start now) [] = some (plan, s, log)) :
    (s.halted = true ↔ ∃ o, .marked o ∈ log ∧ o.halts = true) ∧
      (∀ new o old, log = new ++ .marked o :: old → o.halts = true → new = []) ∧
        ∀ rows advertised vlans, plan = .contexts rows advertised vlans → s.halted = false ∧
          ∀ pool, rd.ContextsReach sur fuel vlans s log pool → pool.st.halted = true →
            Winding pool → BeginsNone sur pool := by
  have hdefault := defaultRead_of_run hread
  have hquiet := hdefault.quiet
  refine ⟨⟨fun hyes ↦ ?_, fun ⟨o, ho, hhalts⟩ ↦ ?_⟩, fun new o old hlog hhalts ↦ ?_,
    fun rows advertised vlans hplan ↦ ⟨?_, fun pool hpool ↦ beginsNone_of_winding hpool⟩⟩
  · obtain ⟨o, rest, hlog, hhalts, -⟩ := hquiet.halted hyes
    have hlog' : log = .marked o :: rest := hlog
    exact ⟨o, hlog' ▸ List.mem_cons_self, hhalts⟩
  · by_contra hno
    exact Bool.false_ne_true
      ((hquiet.going (Bool.eq_false_of_not_eq_true hno) o ho).symm.trans hhalts)
  · have hmem : .marked o ∈ log := hlog ▸ List.mem_append_right _ List.mem_cons_self
    have hhalted : s.halted = true := by
      by_contra hno
      exact Bool.false_ne_true
        ((hquiet.going (Bool.eq_false_of_not_eq_true hno) o hmem).symm.trans hhalts)
    obtain ⟨o', rest, hlog', -, hbefore⟩ := hquiet.halted hhalted
    have hsame : .marked o' :: rest = new ++ .marked o :: old := hlog'.symm.trans hlog
    cases new with
    | nil => rfl
    | cons e new =>
      obtain rfl := (List.cons.inj hsame).2
      have hno := hbefore o (List.mem_append_right _ List.mem_cons_self)
      exact absurd (hno.symm.trans hhalts) Bool.false_ne_true
  · obtain ⟨toRead, overCap, hplanned⟩ := hdefault.planned rows advertised vlans hplan
    exact halted_of_not_stopped (Bool.eq_false_iff.1 hplanned.goes)

/-- The host of VLAN 10 is on a logical unit and ifStackTable times out; VLAN 30's context is begun
after that. -/
theorem context_behind_timeout :
    let mib : Mib := ⟨[(dot1dBasePortIfindex ++ [1], "10"),
      (dot1dTpFdbPort ++ [0, 17, 34, 51, 68, 85], "1"),
      (dot1dTpFdbStatus ++ [0, 17, 34, 51, 68, 85], "3")], by decide⟩
    let rd : MacRead :=
      { version := .v2c, community := "public"
        opts := ⟨.always, false, 120, 128, [.str "10", .str "20", .str "30"]⟩
        ifaces := ⟨Dict.ofList [("5", ("6", "ethernet")), ("10", ("53", "virtual"))], [], []⟩ }
    let sur : Surroundings :=
      { clock := fun _ ↦ 0
        reply := fun _ q ↦
          if q.access = rd.access ∧ q.cursors.any ifStackStatus.isPrefixOf then
            .response (some ⟨"RequestTimedOut", ""⟩) 0 "" 0 []
          else Agent.serve (fun a ↦ if a = rd.contextAuth 10 then mib else ⟨[], .nil⟩) q
        pick := fun _ ↦ 1 }
    let timedOut : Event (net Outcome) → Bool := fun e ↦
      match e with
      | .marked o => decide (o.access = rd.access) && o.halts
      | _ => false
    let asks : Event (net Outcome) → Bool := fun e ↦
      match e with
      | .asked q _ => q.access = rd.contextAuth 30
      | _ => false
    ∃ out log, rd.run sur 40 (rd.start 0) = some (out, log) ∧
      ∃ new e old, log = new ++ e :: old ∧ timedOut e = true ∧ new.any asks = true ∧
        old.any asks = false := by
  intro mib rd sur timedOut asks
  have hrun : (rd.run sur 40 (rd.start 0)).map (fun out ↦
      ((out.2.takeWhile fun e ↦ !timedOut e).any asks,
        (out.2.dropWhile fun e ↦ !timedOut e).head?.map timedOut,
          (out.2.dropWhile fun e ↦ !timedOut e).tail.any asks)) =
      some (true, some true, false) := by
    decide +kernel
  obtain ⟨⟨out, log⟩, hout, heq⟩ := Option.map_eq_some_iff.1 hrun
  obtain ⟨hnew, hrest⟩ := Prod.mk.inj heq
  obtain ⟨hhead, hold⟩ := Prod.mk.inj hrest
  obtain ⟨e, he, htimedOut⟩ := Option.map_eq_some_iff.1 hhead
  refine ⟨out, log, hout, log.takeWhile fun e ↦ !timedOut e, e,
    (log.dropWhile fun e ↦ !timedOut e).tail, ?_, htimedOut, hnew, hold⟩
  rw [List.cons_head?_tail he, List.takeWhile_append_dropWhile]

/-- VLAN 20's context is in its table walk when the ifStackTable that VLAN 10's context asks for
times out: its walk goes on, and nothing else is begun. -/
theorem no_context_behind_timeout :
    let mib : Mib := ⟨[(dot1dBasePortIfindex ++ [1], "10"),
      (dot1dTpFdbPort ++ [0, 17, 34, 51, 68, 85], "1"),
      (dot1dTpFdbStatus ++ [0, 17, 34, 51, 68, 85], "3")], by decide⟩
    let rd : MacRead :=
      { version := .v2c, community := "public"
        opts := ⟨.always, false, 120, 128, [.str "10", .str "20"]⟩
        ifaces := ⟨Dict.ofList [("5", ("6", "ethernet")), ("10", ("53", "virtual"))], [], []⟩ }
    let sur : Surroundings :=
      { clock := fun _ ↦ 0
        reply := fun _ q ↦
          if q.access = rd.access ∧ q.cursors.any ifStackStatus.isPrefixOf then
            .response (some ⟨"RequestTimedOut", ""⟩) 0 "" 0 []
          else Agent.serve (fun a ↦
            if a = rd.contextAuth 10 ∨ a = rd.contextAuth 20 then mib else ⟨[], .nil⟩) q
        -- by turns, up to where VLAN 10 has read its table; from there on VLAN 10 alone
        pick := fun log ↦ if log.length < 40 then 0 else 1 }
    ∃ vlans s log pool, rd.ContextsReach sur 40 vlans s log pool ∧ s.halted = false ∧
      pool.st.halted = true ∧ (∃ p, pool.parked = [p] ∧ p.query.access = rd.contextAuth 20 ∧
        ∀ oid ∈ p.query.cursors, dot1dTpFdbPort <+: oid ∨ dot1dTpFdbStatus <+: oid) ∧
          BeginsNone sur pool := by
  intro mib rd sur
  have hread : ((rd.read 40).run sur.env (rd.start 0) []).bind (fun out ↦
      match out.1 with
      | .contexts _ _ vlans =>
        (Pool.moves sur.env macContextConcurrency 11
          ⟨vlans.map (rd.one 40), [], out.2.1, out.2.2⟩).map fun pool ↦
            (pool.st.halted, pool.queue.length, pool.parked.map fun p ↦
              (decide (p.query.access = rd.contextAuth 20), p.query.cursors))
      | _ => none) =
      some (true, 0, [(true,
        [dot1dTpFdbPort ++ [0, 17, 34, 51, 68, 85],
          dot1dTpFdbStatus ++ [0, 17, 34, 51, 68, 85]])]) := by
    decide +kernel
  obtain ⟨⟨plan, s, log⟩, hplanned, heq⟩ := Option.bind_eq_some_iff.1 hread
  cases plan with
  | rows | raised => cases heq
  | contexts rows advertised vlans =>
    obtain ⟨pool, hmoves, hseen⟩ := Option.map_eq_some_iff.1 heq
    obtain ⟨hhalted, hrest⟩ := Prod.mk.inj hseen
    obtain ⟨hqueue, hparked⟩ := Prod.mk.inj hrest
    obtain ⟨p, hpool, hquery⟩ := List.map_eq_singleton_iff.1 hparked
    obtain ⟨haccess, hcursors⟩ := Prod.mk.inj hquery
    obtain ⟨-, -, hcontexts⟩ := no_walk_behind_timeout rd sur 40 0 hplanned
    obtain ⟨hgoes, hbegins⟩ := hcontexts rows advertised vlans rfl
    have hreach : rd.ContextsReach sur 40 vlans s log pool := Pool.reaches_of_moves hmoves
    have hwinding : Winding pool := by
      refine ⟨.inl (List.length_eq_zero_iff.1 hqueue), fun p' hp' access hsends ↦ ?_⟩
      obtain rfl : p' = p := List.mem_singleton.1 (hpool ▸ hp')
      obtain ⟨base, hbase, hprefix⟩ := hsends.cursors (dot1dTpFdbPort ++ [0, 17, 34, 51, 68, 85])
        (hcursors ▸ List.mem_cons_self)
      obtain rfl : base = dot1dBasePortIfindex := List.mem_singleton.1 hbase
      exact absurd hprefix (by decide)
    refine ⟨vlans, s, log, pool, hreach, hgoes, hhalted, ⟨p, hpool, of_decide_eq_true haccess, ?_⟩,
      hbegins pool hreach hhalted hwinding⟩
    rw [hcursors]
    decide

end Snmp
