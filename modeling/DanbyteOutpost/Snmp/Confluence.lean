import DanbyteOutpost.Snmp.DefaultRead
import DanbyteOutpost.Snmp.Mib
import DanbyteOutpost.Snmp.Tally

/-!
# The contexts of VLANs in any order

A run of contexts of which none fails leaves what the tables say, by the order in which they were
learned (`allRead_of_run`). Of that order nothing is left in a report (`AllRead.alike`), so two
reads that differ in it alone return the same.

## The proof

The default context is read before the others and by one task, so two reads of one agent agree up
to there (`read_inTime`). Then the crews part. Of a crew, `Tallied` says that everything it has
written is what the tables of the VLANs make of one order, that in which their forwarding tables
came in: the rows of a VLAN are a function of its tables, the counters are added up, and the stack
table is read by whoever needs it first.

At the end the order runs over all VLANs (`AllRead`), and all that is left of it in the state are
permutations. The report sorts what it lists, takes the worst of the port maps, and says each
problem once, so nothing is left in the report (`AllRead.alike`).
-/

namespace Snmp

open Coop

variable {rd : MacRead} {tables : Tables} {fuel : ℕ} {allowed : Allowed (net Outcome)}
  {answer : Query → Reply} {s : ReadState} {order : List ℤ}

/-! ### Runs of contexts -/

/-- Nothing is cut, and no context has failed. -/
structure Unfailed (crew : ContextCrew) : Prop where
  /-- The budget has held so far. -/
  uncut : crew.world.st.budget.truncated = false
  /-- No context is listed as failed. -/
  failed : crew.world.st.report.vlans.failed = []
  /-- None of those under way is about to be. -/
  flight : ∀ l ∈ crew.flight, l.fine = true

/-- What a crew of contexts has left since `s`, none of which has failed. -/
structure Tallied (rd : MacRead) (tables : Tables) (s : ReadState) (order : List ℤ)
    (crew : ContextCrew) : Prop where
  /-- The parts of the report that add up do so. -/
  tally : rd.Tally tables s order crew.world.st
  /-- `order` has the VLANs that were read, and those under way as far as they have reported. -/
  order : (↑order : Multiset ℤ) =
    ↑crew.world.st.report.vlans.read + crew.flight.bind ContextStage.share
  /-- Those under way hold what the agent's tables say of their VLAN. -/
  stages : ∀ l ∈ crew.flight, rd.Tells tables s crew.world.st l
  /-- What was kept of a VLAN is what the tables say of it. -/
  results : ∀ vid, crew.world.st.contexts.results.get? vid =
    if vid ∈ crew.world.st.report.vlans.read then some (rd.rowsIn tables s.stack vid) else none
  /-- Where rows had to be folded, the stack was read. -/
  folded : ∀ vid ∈ crew.world.st.report.vlans.read, ¬rd.Plain (rd.learnedIn tables vid).rows →
    crew.world.st.stack ≠ none
  /-- None was skipped meanwhile. -/
  skipped : crew.world.st.report.vlans.skipped = s.report.vlans.skipped
  /-- None was given up. -/
  aborted : crew.world.st.contexts.aborted = []
  /-- None failed. -/
  failures : crew.world.st.contexts.failures.keys = []

variable {cap lates : ℕ} {skipped : List ℤ} {crew crew' : ContextCrew}

/-- A context that leaves no failure, and is not cut, is read. -/
theorem ok_of_settle {vid : ℤ} {ok : Bool} {rows : List Row} {failure : String}
    (hcut : (ContextStage.read vid ok rows failure).wasCut = false)
    (hfailed : (MacRead.settle vid ok rows failure s).report.vlans.failed = []) : ok = true := by
  cases ok with
  | true => rfl
  | false =>
    have hfailure : failure ≠ "" := of_decide_eq_false hcut
    have hend : endFor false failure = .failed := by
      rw [endFor, if_neg Bool.false_ne_true, if_neg hfailure]
    rw [failed_settle, if_pos hend] at hfailed
    exact absurd hfailed (List.append_ne_nil_of_right_ne_nil _ (List.cons_ne_nil _ _))

/-- Where no context has failed none had. -/
theorem Unfailed.before (h : Unfailed crew') (hskips : Skips skipped lates crew)
    (hstep : Crew.Step (rd.contextCourse fuel allowed) cap crew crew') : Unfailed crew := by
  cases hstep with
  | start => exact ⟨h.uncut, h.failed, fun l hl ↦ h.flight l (Multiset.mem_cons_of_mem hl)⟩
  | @step l l' queue flight w w' hstep =>
    have hframe := MacRead.ContextStep.frame hstep
    have huncut : w'.st.budget.truncated = false := h.uncut
    refine ⟨hframe.toStateFrame.uncut huncut, ?_, fun l₁ hl₁ ↦ ?_⟩
    · show w.st.report.vlans.failed = []
      have hvlans : w'.st.report.vlans = w.st.report.vlans := hframe.vlans
      rw [← hvlans]
      exact h.failed
    · rcases Multiset.mem_cons.1 hl₁ with rfl | hl₁
      · exact MacRead.ContextStep.fine hstep (h.flight l' (Multiset.mem_cons_self _ _))
      · exact h.flight l₁ (Multiset.mem_cons_of_mem hl₁)
  | @stop l queue flight w w' hstop =>
    have hflight : l.fine = true → ∀ l₁ ∈ l ::ₘ flight, l₁.fine = true := by
      intro hl l₁ hl₁
      rcases Multiset.mem_cons.1 hl₁ with rfl | hl₁
      · exact hl
      · exact h.flight l₁ hl₁
    cases hstop with
    | stopped | late => exact ⟨h.uncut, h.failed, hflight rfl⟩
    | settled vid ok rows failure w =>
      -- a context that is settled and not read would be on one of the other lists
      have huncut : w.st.budget.truncated = false := (congrArg _ budget_settle).symm.trans h.uncut
      have hcut := hskips.uncut huncut (.read vid ok rows failure) (Multiset.mem_cons_self _ _)
      obtain rfl := ok_of_settle hcut h.failed
      exact ⟨huncut, h.failed, hflight rfl⟩

/-- A context that was read and has its rows. -/
theorem Tallied.settle {vid : ℤ} {queue : List ContextStage} {flight : Multiset ContextStage}
    {rows : List Row} {failure : String} {w : World (net Outcome) ReadState}
    (h : Tallied rd tables s order ⟨queue, .read vid true rows failure ::ₘ flight, w⟩) :
    Tallied rd tables s order ⟨queue, flight,
      ⟨MacRead.settle vid true rows failure w.st, w.log⟩⟩ := by
  obtain ⟨hrows, hfolded⟩ := h.stages (.read vid true rows failure) (Multiset.mem_cons_self _ _)
  obtain ⟨htally, horder, hstages, hresults, hread, hskipped, haborted, hfailures⟩ := h
  refine ⟨htally.withState rfl rfl rfl rfl rfl rfl rfl, ?_, fun l hl ↦ ?_, fun vid' ↦ ?_,
    fun vid' hvid' ↦ ?_, hskipped, haborted, hfailures⟩
  · rw [horder, Multiset.cons_bind]
    show ↑w.st.report.vlans.read + ({vid} + flight.bind ContextStage.share) =
      ↑(w.st.report.vlans.read ++ [vid]) + flight.bind ContextStage.share
    rw [← Multiset.coe_add, Multiset.coe_singleton, add_assoc]
  · exact (hstages l (Multiset.mem_cons_of_mem hl)).mono id
  · show (w.st.contexts.results.set vid rows).get? vid' =
      if vid' ∈ w.st.report.vlans.read ++ [vid] then some (rd.rowsIn tables s.stack vid') else none
    have hresult := hresults vid'
    rw [Dict.get?_set]
    split
    case isTrue heq =>
      obtain rfl := heq
      rw [if_pos (List.mem_append_right _ (List.mem_singleton_self _)), hrows]
    case isFalse hne =>
      have hmem : vid' ∈ w.st.report.vlans.read ++ [vid] ↔ vid' ∈ w.st.report.vlans.read := by
        rw [List.mem_append, List.mem_singleton]
        exact or_iff_left (Ne.symm hne)
      rw [if_congr hmem rfl rfl]
      exact hresult
  · rcases List.mem_append.1 hvid' with hold | hnew
    · exact hread vid' hold
    · obtain rfl := List.mem_singleton.1 hnew
      exact hfolded

/-- A task goes on behind its gate. -/
theorem Tallied.behind {l l' : ContextStage} {queue : List ContextStage}
    {flight : Multiset ContextStage} {w w' : World (net Outcome) ReadState}
    (h : Tallied rd tables s order ⟨queue, l ::ₘ flight, w⟩)
    (hunfailed : Unfailed ⟨queue, l' ::ₘ flight, w'⟩) (htables : tables.From fuel answer)
    (hsteady : Steady allowed answer s.budget.deadline)
    (hstep : (rd.contextCourse fuel allowed).step ⟨l, w⟩ ⟨l', w'⟩) :
    ∃ order', Tallied rd tables s order' ⟨queue, l' ::ₘ flight, w'⟩ := by
  have hframe := MacRead.ContextStep.frame hstep
  have hcontexts : w'.st.contexts = w.st.contexts := hframe.contexts
  have hvlans : w'.st.report.vlans = w.st.report.vlans := hframe.vlans
  have hstack : w.st.stack ≠ none → w'.st.stack ≠ none := MacRead.ContextStep.stack_ne_none hstep
  have horder := h.order
  rw [Multiset.cons_bind] at horder
  -- a VLAN whose table is learned is in the order, whether it is on a list or not
  have hshare : ∀ vid ∈ l.share, vid ∈ order := by
    intro vid hvid
    rw [← Multiset.mem_coe, horder]
    exact Multiset.mem_add.2 (.inr (Multiset.mem_add.2 (.inl hvid)))
  obtain ⟨order', horder', htally, htells⟩ := MacRead.ContextStep.tally hstep htables hsteady
    (hunfailed.flight l' (Multiset.mem_cons_self _ _)) hunfailed.uncut h.tally
    (h.stages l (Multiset.mem_cons_self _ _)) hshare
  refine ⟨order', htally, ?_, fun l₁ hl₁ ↦ ?_, fun vid ↦ ?_, ?_, ?_, ?_, ?_⟩
  · rw [Multiset.cons_bind]
    show ↑order' = (↑w'.st.report.vlans.read : Multiset ℤ) + _
    rw [hvlans]
    refine add_right_cancel (b := l.share) (horder'.trans ?_)
    rw [horder]
    abel
  · rcases Multiset.mem_cons.1 hl₁ with rfl | hl₁
    · exact htells
    · exact (h.stages l₁ (Multiset.mem_cons_of_mem hl₁)).mono hstack
  · show w'.st.contexts.results.get? vid =
      if vid ∈ w'.st.report.vlans.read then some (rd.rowsIn tables s.stack vid) else none
    rw [hcontexts, hvlans]
    exact h.results vid
  · show ∀ vid ∈ w'.st.report.vlans.read, ¬rd.Plain (rd.learnedIn tables vid).rows →
      w'.st.stack ≠ none
    rw [hvlans]
    exact fun vid hvid hlogical ↦ hstack (h.folded vid hvid hlogical)
  · show w'.st.report.vlans.skipped = _
    rw [hvlans]
    exact h.skipped
  · show w'.st.contexts.aborted = []
    rw [hcontexts]
    exact h.aborted
  · show w'.st.contexts.failures.keys = []
    rw [hcontexts]
    exact h.failures

/-- The step lemma of contexts that do not fail. -/
theorem Tallied.step (h : Tallied rd tables s order crew) (hskips : Skips skipped lates crew)
    (hunfailed : Unfailed crew') (htables : tables.From fuel answer)
    (hsteady : Steady allowed answer s.budget.deadline)
    (hstep : Crew.Step (rd.contextCourse fuel allowed) cap crew crew') :
    ∃ order', Tallied rd tables s order' crew' := by
  have hbefore := hunfailed.before hskips hstep
  cases hstep with
  | @start l queue flight w hcard =>
    obtain ⟨vid, rfl⟩ := eq_gate (hskips.waiting l List.mem_cons_self)
    refine ⟨order, h.tally, ?_, fun l' hl' ↦ ?_, h.results, h.folded, h.skipped, h.aborted,
      h.failures⟩
    · rw [h.order, Multiset.cons_bind]
      show _ = (↑w.st.report.vlans.read : Multiset ℤ) + (0 + _)
      rw [zero_add]
    · rcases Multiset.mem_cons.1 hl' with rfl | hl'
      · trivial
      · exact h.stages l' hl'
  | step hstep => exact h.behind hunfailed htables hsteady hstep
  | @stop l queue flight w w' hstop =>
    cases hstop with
    | stopped vid w hstopped =>
      -- no gate is closed: nothing is given up and nothing is cut
      have haborted : w.st.contexts.aborted = [] := h.aborted
      have huncut : w.st.budget.truncated = false := hbefore.uncut
      rw [haborted, huncut] at hstopped
      exact absurd hstopped (not_or.2 ⟨fun hne ↦ hne rfl, Bool.false_ne_true⟩)
    | late vid w haborted huncut hlate =>
      have hdeadline : w.st.budget.deadline = s.budget.deadline := h.tally.deadline
      rw [hdeadline] at hlate
      exact absurd hlate (hsteady.inTime _ _)
    | settled vid ok rows failure w =>
      obtain rfl : ok = true :=
        hbefore.flight (.read vid ok rows failure) (Multiset.mem_cons_self _ _)
      exact ⟨order, h.settle⟩

/-! ### What all contexts leave -/

/-- The contexts of the VLANs are all read. -/
structure AllRead (rd : MacRead) (tables : Tables) (s : ReadState) (vlans order : List ℤ)
    (s' : ReadState) : Prop where
  /-- The report has the sums of all the VLANs. -/
  tally : rd.Tally tables s order s'
  /-- `order` is some order of them. -/
  order : order.Perm vlans
  /-- They are listed as read, in the order in which they ended. -/
  read : s'.report.vlans.read.Perm vlans
  /-- None is skipped. -/
  skipped : s'.report.vlans.skipped = s.report.vlans.skipped
  /-- None failed. -/
  failed : s'.report.vlans.failed = []
  /-- The rows are those of the tables, sorted by VLAN. -/
  rows : MacRead.contextRows s'.contexts = (sortedSet vlans).flatMap (rd.rowsIn tables s.stack)
  /-- There is nothing to complain of. -/
  problems : rd.contextProblems s'.contexts = []
  /-- The stack is looked up at most once, and only where a row lies on a logical unit. -/
  stack : s'.stack = s.stack ↔
    s.stack ≠ none ∨ ∀ vid ∈ vlans, rd.Plain (rd.learnedIn tables vid).rows
  /-- The budget has held. -/
  uncut : s'.budget.truncated = false

/-- Before the first context has begun, the tally is empty. -/
theorem tallied_start (rd : MacRead) (tables : Tables) (vlans : List ℤ) (log : Log (net Outcome))
    (h : ContextsBegin vlans s) (hgoes : s.halted = false) :
    Tallied rd tables s [] ⟨vlans.map .gate, 0, ⟨s, log⟩⟩ where
  tally := .refl rd tables hgoes
  order := by
    show (0 : Multiset ℤ) = ↑s.report.vlans.read + 0
    rw [h.read]
    rfl
  stages := fun l hl ↦ absurd hl (Multiset.notMem_zero l)
  results := by
    intro vid
    show s.contexts.results.get? vid =
      if vid ∈ s.report.vlans.read then some (rd.rowsIn tables s.stack vid) else none
    rw [h.contexts, h.read, if_neg List.not_mem_nil]
    rfl
  folded := by
    show ∀ vid ∈ s.report.vlans.read, _
    rw [h.read]
    exact fun vid hvid ↦ absurd hvid List.not_mem_nil
  skipped := rfl
  aborted := by
    show s.contexts.aborted = []
    rw [h.contexts]
  failures := by
    show s.contexts.failures.keys = []
    rw [h.contexts]
    rfl

variable {sur sur' : Surroundings} {vlans : List ℤ} {s' : ReadState} {log log' : Log (net Outcome)}

/-- The rows of contexts that are done, and their keys. -/
theorem Tallied.contextRows {queue : List ContextStage} {flight : Multiset ContextStage}
    {w : World (net Outcome) ReadState} (h : Tallied rd tables s order ⟨queue, flight, w⟩)
    (hread : w.st.report.vlans.read.Perm vlans) :
    MacRead.contextRows w.st.contexts = (sortedSet vlans).flatMap (rd.rowsIn tables s.stack) := by
  have hin : ∀ vid, vid ∈ w.st.contexts.results.keys ↔ vid ∈ w.st.report.vlans.read := by
    intro vid
    have hresult := h.results vid
    rw [Dict.mem_keys_iff]
    constructor
    · rintro ⟨rows, hrows⟩
      by_contra hno
      rw [if_neg hno] at hresult
      exact Option.some_ne_none rows (hrows.symm.trans hresult)
    · intro hvid
      rw [if_pos hvid] at hresult
      exact ⟨_, hresult⟩
  rw [MacRead.contextRows, sortedSet_of_mem_iff fun vid ↦ (hin vid).trans hread.mem_iff]
  refine List.flatMap_congr fun vid hvid ↦ ?_
  have hresult := h.results vid
  rw [if_pos (hread.mem_iff.2 (mem_sortedSet.1 hvid))] at hresult
  show (w.st.contexts.results.get? vid).getD [] = _
  rw [hresult, Option.getD_some]

/-- ifStackTable was walked if there was no stack of units and one of the VLANs has a logical unit.
-/
theorem Tallied.stack_iff {queue : List ContextStage} {flight : Multiset ContextStage}
    {w : World (net Outcome) ReadState} (h : Tallied rd tables s order ⟨queue, flight, w⟩)
    (hread : w.st.report.vlans.read.Perm vlans) (horder : order.Perm vlans) :
    w.st.stack = s.stack ↔
      s.stack ≠ none ∨ ∀ vid ∈ vlans, rd.Plain (rd.learnedIn tables vid).rows := by
  constructor
  · intro hsame
    refine or_iff_not_imp_left.2 fun hnone vid hvid ↦ ?_
    by_contra hlogical
    have hsome : w.st.stack ≠ none := h.folded vid (hread.mem_iff.2 hvid) hlogical
    exact hnone (hsame ▸ hsome)
  · intro hwhen
    rcases h.tally.stack with hsame | ⟨hnone, -, vid, hvid, hlogical⟩
    · exact hsame
    · rcases hwhen with hsome | hplain
      · exact absurd hnone hsome
      · exact absurd (hplain vid (horder.subset hvid)) hlogical

/-- Where no VLAN fails and none is skipped, all are read. -/
theorem read_perm_of_reaches (hbegin : ContextsBegin vlans s)
    (hreaches : Crew.Reaches (rd.contextCourse fuel allowed) cap ⟨vlans.map .gate, 0, ⟨s, log⟩⟩
      ⟨[], 0, ⟨s', log'⟩⟩)
    (hfailed : s'.report.vlans.failed = [])
    (hskipped : s'.report.vlans.skipped = s.report.vlans.skipped) :
    s'.report.vlans.read.Perm vlans := by
  have hvids : s'.report.vlans.all = ↑vlans + s.report.vlans.all := by
    have hids : (vlans.map .gate).map ContextStage.vid = vlans :=
      (List.map_map ..).trans (List.map_id vlans)
    have heq := vids_eq_of_reaches hreaches
    rw [ContextCrew.vids, ContextCrew.vids, hids] at heq
    simpa using heq
  rw [VlanLists.all, VlanLists.all, hskipped, hfailed, hbegin.read, hbegin.failed] at hvids
  refine Multiset.coe_eq_coe.1 (add_right_cancel (b := (↑s.report.vlans.skipped : Multiset ℤ)) ?_)
  simpa using hvids

/-- The run lemma: contexts of which none has failed are all read. -/
theorem allRead_of_run (hbegin : ContextsBegin vlans s) (hgoes : s.halted = false)
    (htables : tables.From fuel answer) (hsur : sur.InTime answer s.budget.deadline)
    (hreads : gather sur.env macContextConcurrency fuel (vlans.map (rd.one fuel)) s log =
      some (s', log'))
    (huncut : s'.budget.truncated = false) (hfailed : s'.report.vlans.failed = []) :
    ∃ order, AllRead rd tables s vlans order s' := by
  have hreaches := MacRead.contexts_reach sur.env.suits_allowed hreads
  -- a run of which no context has failed is one all along, so the tally goes through
  have htallied : Skips s.report.vlans.skipped (lateGates log) ⟨[], 0, ⟨s', log'⟩⟩ ∧
      (Unfailed ⟨[], 0, ⟨s', log'⟩⟩ → ∃ order, Tallied rd tables s order ⟨[], 0, ⟨s', log'⟩⟩) := by
    refine hreaches.keeps (P := fun c ↦ Skips s.report.vlans.skipped (lateGates log) c ∧
      (Unfailed c → ∃ order, Tallied rd tables s order c)) (fun c c' hc hstep ↦ ?_)
      ⟨skips_start vlans s log, fun _ ↦ ⟨[], tallied_start rd tables vlans log hbegin hgoes⟩⟩
    obtain ⟨hskips, htallied⟩ := hc
    refine ⟨hskips.step hstep, fun hunfailed ↦ ?_⟩
    obtain ⟨order, horder⟩ := htallied (hunfailed.before hskips hstep)
    exact horder.step hskips hunfailed htables hsur.steady hstep
  have hnone : Unfailed ⟨[], 0, ⟨s', log'⟩⟩ :=
    ⟨huncut, hfailed, fun l hl ↦ absurd hl (Multiset.notMem_zero l)⟩
  obtain ⟨order, h⟩ := htallied.2 hnone
  have hread := read_perm_of_reaches hbegin hreaches hfailed h.skipped
  have horder : order.Perm vlans := by
    have heq := h.order
    rw [Multiset.zero_bind, add_zero] at heq
    exact (Multiset.coe_eq_coe.1 heq).trans hread
  have hproblems : rd.contextProblems s'.contexts = [] := by
    have haborted : s'.contexts.aborted = [] := h.aborted
    have hfailures : s'.contexts.failures.keys = [] := h.failures
    rw [MacRead.contextProblems, haborted, hfailures, if_pos rfl]
    rfl
  exact ⟨order, h.tally, horder, hread, h.skipped, hfailed, h.contextRows hread, hproblems,
    h.stack_iff hread horder, huncut⟩

/-! ### The report -/

/-- States that end with the same report. -/
structure Alike (s₁ s₂ : ReadState) : Prop where
  /-- The same `source`. -/
  source : s₂.report.source = s₁.report.source
  /-- The same `vlan_map`. -/
  vlanMap : s₂.report.vlanMap = s₁.report.vlanMap
  /-- The same counters. -/
  dropped : s₂.report.dropped = s₁.report.dropped
  /-- The same VLANs are read; the report sorts them. -/
  read : s₂.report.vlans.read.Perm s₁.report.vlans.read
  /-- The same VLANs are skipped. -/
  skipped : s₂.report.vlans.skipped = s₁.report.vlans.skipped
  /-- The same VLANs failed. -/
  failed : s₂.report.vlans.failed = s₁.report.vlans.failed
  /-- The same port maps were met, in whatever order. -/
  portMaps : s₂.portMaps.Perm s₁.portMaps
  /-- The default context's ports were read, or not. -/
  defaultBase : s₂.defaultBase = s₁.defaultBase
  /-- The same complaints, each once. -/
  problems : s₂.problems.eraseDups = s₁.problems.eraseDups
  /-- The first was not cut. -/
  uncut₁ : s₁.budget.truncated = false
  /-- Nor was the second. -/
  uncut₂ : s₂.budget.truncated = false

variable {s₁ s₂ : ReadState}

/-- Two reads that are alike have problems or have none. -/
theorem Alike.isEmpty_problems (h : Alike s₁ s₂) : s₂.problems.isEmpty = s₁.problems.isEmpty := by
  have hnil : s₂.problems = [] ↔ s₁.problems = [] := by
    rw [List.eq_nil_iff_forall_not_mem, List.eq_nil_iff_forall_not_mem]
    refine forall_congr' fun problem ↦ not_congr ?_
    rw [← List.mem_eraseDups, h.problems, List.mem_eraseDups]
  rw [Bool.eq_iff_iff, List.isEmpty_iff, List.isEmpty_iff]
  exact hnil

theorem Alike.finish (h : Alike s₁ s₂) (rows : List Row) (started now started' now' : ℚ) :
    (s₁.finish rows started now).2.SameButTime (s₂.finish rows started' now').2 := by
  have hproblems₁ : s₁.allProblems = s₁.problems := by
    rw [ReadState.allProblems, h.uncut₁, if_neg Bool.false_ne_true]
  have hproblems₂ : s₂.allProblems = s₂.problems := by
    rw [ReadState.allProblems, h.uncut₂, if_neg Bool.false_ne_true]
  have hread := sortedSet_of_mem_iff fun vid ↦ h.read.mem_iff (a := vid)
  rw [MacMeta.SameButTime, ReadState.finish, ReadState.finish, MacMeta.mk.injEq]
  refine ⟨h.source, ?_, ?_, h.vlanMap, ?_, ?_, h.dropped, rfl, rfl, ?_⟩
  · show s₂.allProblems.isEmpty = s₁.allProblems.isEmpty
    rw [hproblems₁, hproblems₂]
    exact h.isEmpty_problems
  · exact h.uncut₂.trans h.uncut₁.symm
  · have hperm := h.portMaps
    cases hmaps₁ : s₁.portMaps with
    | nil =>
      rw [hmaps₁] at hperm
      rw [hperm.eq_nil]
      show (if s₂.defaultBase then PortMap.basePort else .none) =
        if s₁.defaultBase then PortMap.basePort else .none
      rw [h.defaultBase]
    | cons first rest =>
      rw [hmaps₁] at hperm
      cases hmaps₂ : s₂.portMaps with
      | nil =>
        rw [hmaps₂] at hperm
        exact absurd hperm.symm.eq_nil (List.cons_ne_nil _ _)
      | cons first' rest' =>
        rw [hmaps₂] at hperm
        exact worstPortMap_of_perm hperm
  · show VlanLists.mk _ (sortedSet s₂.report.vlans.skipped) (sortedSet s₂.report.vlans.failed) = _
    rw [hread, h.skipped, h.failed]
  · show String.ofList (("; ".intercalate s₂.allProblems.eraseDups).toList.take 300) = _
    rw [hproblems₁, hproblems₂, h.problems]

/-- How often ifStackTable is said to have failed does not show. -/
theorem eraseDups_problems {problems problems₁ problems₂ : List String} {problem : String}
    {none : Prop} (h₁ : ∃ n, problems₁ = problems ++ List.replicate n problem ∧ (n = 0 ↔ none))
    (h₂ : ∃ n, problems₂ = problems ++ List.replicate n problem ∧ (n = 0 ↔ none)) :
    problems₂.eraseDups = problems₁.eraseDups := by
  obtain ⟨n₁, rfl, hnone₁⟩ := h₁
  obtain ⟨n₂, rfl, hnone₂⟩ := h₂
  have hzero : n₂ = 0 ↔ n₁ = 0 := hnone₂.trans hnone₁.symm
  cases n₁ with
  | zero => rw [hzero.2 rfl]
  | succ n₁ =>
    obtain ⟨n, rfl⟩ := Nat.exists_eq_succ_of_ne_zero (mt hzero.1 (Nat.succ_ne_zero n₁))
    rw [eraseDups_append_replicate, eraseDups_append_replicate]

/-- Contexts that are all read leave the same, in whatever order they were learned. -/
theorem AllRead.alike {order₁ order₂ : List ℤ} (h₁ : AllRead rd tables s vlans order₁ s₁)
    (h₂ : AllRead rd tables s vlans order₂ s₂) (rows : List Row) (advertised : Bool) :
    (rd.afterContexts rows advertised s₂).1 = (rd.afterContexts rows advertised s₁).1 ∧
      Alike (rd.afterContexts rows advertised s₁).2 (rd.afterContexts rows advertised s₂).2 := by
  have horder : order₂.Perm order₁ := h₂.order.trans h₁.order.symm
  have hempty₁ : s₁.report.vlans.read.isEmpty = vlans.isEmpty := h₁.read.isEmpty_eq
  have hempty₂ : s₂.report.vlans.read.isEmpty = vlans.isEmpty := h₂.read.isEmpty_eq
  have hsource₁ : s₁.report.source = s.report.source := by rw [h₁.tally.report]
  have hsource₂ : s₂.report.source = s.report.source := by rw [h₂.tally.report]
  have hvlanMap₁ : s₁.report.vlanMap = s.report.vlanMap := by rw [h₁.tally.report]
  have hvlanMap₂ : s₂.report.vlanMap = s.report.vlanMap := by rw [h₂.tally.report]
  have hreport₁ := afterContexts_report rd rows advertised s₁
  have hreport₂ := afterContexts_report rd rows advertised s₂
  rw [hempty₁, hsource₁, hvlanMap₁] at hreport₁
  rw [hempty₂, hsource₂, hvlanMap₂] at hreport₂
  constructor
  · rw [MacRead.afterContexts, MacRead.afterContexts]
    simp only [hempty₁, hempty₂, h₁.read.mem_iff, h₂.read.mem_iff, h₁.rows, h₂.rows]
  · refine ⟨?_, ?_, ?_, ?_, ?_, ?_, ?_, ?_, ?_, h₁.uncut, h₂.uncut⟩
    · rw [hreport₁, hreport₂]
    · rw [hreport₁, hreport₂]
    · rw [hreport₁, hreport₂]
      -- counts commute
      show s₂.report.dropped = s₁.report.dropped
      rw [h₁.tally.report, h₂.tally.report]
      exact (horder.flatMap_right _).foldl_eq _
    · rw [hreport₁, hreport₂]
      exact h₂.read.trans h₁.read.symm
    · rw [hreport₁, hreport₂]
      exact h₂.skipped.trans h₁.skipped.symm
    · rw [hreport₁, hreport₂]
      exact h₂.failed.trans h₁.failed.symm
    · show s₂.portMaps.Perm s₁.portMaps
      rw [h₁.tally.portMaps, h₂.tally.portMaps]
      exact (horder.flatMap_right _).append_left _
    · exact h₂.tally.defaultBase.trans h₁.tally.defaultBase.symm
    · show (s₂.problems ++ rd.contextProblems s₂.contexts).eraseDups =
        (s₁.problems ++ rd.contextProblems s₁.contexts).eraseDups
      -- the one problem that can come in between is said of ifStackTable, as often as it was walked
      rw [h₁.problems, h₂.problems, List.append_nil, List.append_nil]
      have hlooked₁ := h₁.tally.problems
      have hlooked₂ := h₂.tally.problems
      rw [h₁.stack] at hlooked₁
      rw [h₂.stack] at hlooked₂
      exact eraseDups_problems hlooked₁ hlooked₂

/-! ### The whole read -/

/-- Up to the contexts of VLANs, a read with time to spare depends on the answers only. -/
theorem read_inTime {now : ℚ} (h : sur.InTime answer (now + rd.opts.budgetS))
    (h' : sur'.InTime answer (now + rd.opts.budgetS)) {plan : Plan}
    (hread : (rd.read fuel).run sur.env (rd.start now) [] = some (plan, s, log)) :
    (rd.read fuel).run sur'.env (rd.start now) [] = some (plan, s, log) := by
  have hanswers : False → sur.Answers fun _ ↦ ⟨[], .nil⟩ := False.elim
  obtain ⟨hinv, -⟩ := Coro.run_of_wp (obeys_rules hanswers)
    (read_wp (start_inv rd _ False now)) hread
  have hempty : sur.env.Replays [] := trivial
  have hlog : sur.env.Replays log := Res.replays_of_run hempty hread
  refine Res.run_of_replays hread ?_
  refine Env.replays_of_forall (fun p yes before hsuffix ↦ ?_) fun q r before hsuffix ↦ ?_
  · have hdeadline := hinv.budgeted.polled p yes (hsuffix.subset List.mem_cons_self)
    have hsaid : sur.env.reading before p = yes := (hlog.suffix hsuffix).1
    rw [← hsaid, h.reading before hdeadline]
    exact h'.reading before hdeadline
  · have hsaid : sur.reply before q = r := (hlog.suffix hsuffix).1
    rw [← hsaid, h.reply]
    exact h'.reply before q

/-- Two reads of an agent that answers each request in one way, with time and rows to spare and no
context that fails, return the same rows and, their durations aside, the same report, in whatever
order the contexts go on.

The rows of a context depend on its tables alone, the counters are sums, and `_finish` sorts the
lists. What is left to the order is who makes the one walk of ifStackTable, and all of them would be
sent the same. -/
theorem reads_confluent (rd : MacRead) (fuel : ℕ) (now : ℚ) {answer : Query → Reply}
    {sur sur' : Surroundings} (h : sur.InTime answer (now + rd.opts.budgetS))
    (h' : sur'.InTime answer (now + rd.opts.budgetS)) {rows rows' : List Row}
    {report report' : MacMeta} {log log' : Log (net Outcome)}
    (hrun : rd.run sur fuel (rd.start now) = some ((rows, report), log))
    (hrun' : rd.run sur' fuel (rd.start now) = some ((rows', report'), log'))
    (huncut : report.truncated = false) (huncut' : report'.truncated = false)
    (hfailed : report.vlans.failed = []) (hfailed' : report'.vlans.failed = []) :
    rows' = rows ∧ report.SameButTime report' := by
  obtain ⟨⟨plan, s, log₁⟩, hread, hrest⟩ := Option.bind_eq_some_iff.1 hrun
  obtain ⟨⟨plan', s', log₁'⟩, hread₁, hrest'⟩ := Option.bind_eq_some_iff.1 hrun'
  have hread' := read_inTime h h' hread
  obtain ⟨rfl, rfl, rfl⟩ : plan' = plan ∧ s' = s ∧ log₁' = log₁ := by
    simpa using hread₁.symm.trans hread'
  -- the two reads part, if they do, where the contexts of VLANs are read
  have hsame : ∀ (s₁ : ReadState) (rows₁ : List Row),
      s₁.finish rows₁ (sur.clock []) (sur.clock log₁') = (rows, report) →
        s₁.finish rows₁ (sur'.clock []) (sur'.clock log₁') = (rows', report') →
          rows' = rows ∧ report.SameButTime report' := by
    intro s₁ rows₁ hout hout'
    obtain ⟨report'', hfinish, hsame⟩ :=
      MacRead.finish_of_clock (sur'.clock []) (sur'.clock log₁') hout
    obtain ⟨rfl, rfl⟩ := Prod.mk.inj (hout'.symm.trans hfinish)
    exact ⟨rfl, hsame⟩
  cases plan' with
  | rows rows₁ =>
    obtain ⟨hout, -⟩ := Prod.mk.inj (Option.some.inj hrest)
    obtain ⟨hout', -⟩ := Prod.mk.inj (Option.some.inj hrest')
    exact hsame _ _ hout hout'
  | raised error =>
    obtain ⟨hout, -⟩ := Prod.mk.inj (Option.some.inj hrest)
    obtain ⟨hout', -⟩ := Prod.mk.inj (Option.some.inj hrest')
    exact hsame _ _ hout hout'
  | contexts rows₁ advertised vlans =>
    have hdefault := defaultRead_of_run hread
    obtain ⟨_, _, hplanned⟩ := hdefault.planned _ _ _ rfl
    have hdeadline : s'.budget.deadline = now + rd.opts.budgetS := hdefault.deadline
    have hgoes : s'.halted = false := (Bool.or_eq_false_iff.1 hplanned.goes).1
    have hbegin := contextsBegin_of_run hread
    obtain ⟨s₁, hreads, hout⟩ := reads_of_run hread hrun
    obtain ⟨s₂, hreads', hout'⟩ := reads_of_run hread' hrun'
    obtain ⟨rfl, rfl⟩ := Prod.mk.inj hout
    obtain ⟨rfl, rfl⟩ := Prod.mk.inj hout'
    have hnone : ∀ {s₃ : ReadState},
        sortedSet (rd.afterContexts rows₁ advertised s₃).2.report.vlans.failed = [] →
          s₃.report.vlans.failed = [] := by
      intro s₃ hs₃
      rw [sortedSet_eq_nil, afterContexts_report] at hs₃
      exact hs₃
    obtain ⟨tables, htables⟩ := exists_tables fuel answer
    rw [← hdeadline] at h h'
    obtain ⟨order, hall⟩ := allRead_of_run hbegin hgoes htables h hreads huncut (hnone hfailed)
    obtain ⟨order', hall'⟩ :=
      allRead_of_run hbegin hgoes htables h' hreads' huncut' (hnone hfailed')
    obtain ⟨hrows, halike⟩ := hall.alike hall' rows₁ advertised
    rw [hrows]
    exact ⟨rfl, halike.finish ..⟩

/-- Two VLANs have a host each on a unit. One by one, their contexts walk ifStackTable once; in
turns, twice. -/
theorem reads_confluent_folded :
    let mib : Mib := ⟨[(dot1dBasePortIfindex ++ [1], "10"),
      (dot1dTpFdbPort ++ [0, 17, 34, 51, 68, 85], "1"),
      (dot1dTpFdbStatus ++ [0, 17, 34, 51, 68, 85], "3")], by decide⟩
    let rd : MacRead :=
      { version := .v2c, community := "public"
        opts := ⟨.always, false, 120, 128, [.str "10", .str "20"]⟩
        ifaces := ⟨Dict.ofList [("5", ("6", "ethernet")), ("10", ("53", "virtual"))], [], []⟩ }
    let answer : Query → Reply := Agent.serve fun a ↦
      if a = rd.access then ⟨[(ifStackStatus ++ [10, 5], "1")], by decide⟩ else mib
    let sur : Surroundings := { clock := fun _ ↦ 0, reply := fun _ ↦ answer, pick := fun _ ↦ 0 }
    let sur' : Surroundings := { clock := fun _ ↦ 0, reply := fun _ ↦ answer, pick := fun _ ↦ 1 }
    let lookups : Log (net Outcome) → ℕ := fun log ↦
      (log.filter fun e ↦ !allWalks (fun o ↦ o.columns ≠ stackColumns) [e]).length
    ∃ rows report log report' log', rows.map Row.ifIndex = ["5", "5"] ∧
      rd.run sur 40 (rd.start 0) = some ((rows, report), log) ∧ lookups log = 2 ∧
        rd.run sur' 40 (rd.start 0) = some ((rows, report'), log') ∧ lookups log' = 1 ∧
          report.SameButTime report' := by
  intro mib rd answer sur sur' lookups
  have hrun : (rd.run sur 40 (rd.start 0)).map (fun out ↦
      (out.1.1.map Row.ifIndex, out.1.2.truncated, out.1.2.vlans.failed, lookups out.2)) =
        some (["5", "5"], false, [], 2) := by
    decide +kernel
  have hrun' : (rd.run sur' 40 (rd.start 0)).map (fun out ↦
      (out.1.2.truncated, out.1.2.vlans.failed, lookups out.2)) = some (false, [], 1) := by
    decide +kernel
  obtain ⟨⟨⟨rows, report⟩, log⟩, hout, heq⟩ := Option.map_eq_some_iff.1 hrun
  obtain ⟨⟨⟨rows', report'⟩, log'⟩, hout', heq'⟩ := Option.map_eq_some_iff.1 hrun'
  obtain ⟨hrows, huncut, hfailed, hlookups⟩ : rows.map Row.ifIndex = _ ∧ report.truncated = _ ∧
      report.vlans.failed = _ ∧ lookups log = _ := by
    simpa only [Prod.mk.injEq] using heq
  obtain ⟨huncut', hfailed', hlookups'⟩ : report'.truncated = _ ∧ report'.vlans.failed = _ ∧
      lookups log' = _ := by
    simpa only [Prod.mk.injEq] using heq'
  have hspare : (0 : ℚ) < 0 + rd.opts.budgetS := by
    show (0 : ℚ) < 0 + (120 : ℤ)
    norm_num
  have hsur : sur.InTime answer (0 + rd.opts.budgetS) := ⟨fun _ ↦ hspare, fun _ _ ↦ rfl⟩
  have hsur' : sur'.InTime answer (0 + rd.opts.budgetS) := ⟨fun _ ↦ hspare, fun _ _ ↦ rfl⟩
  obtain ⟨rfl, hsame⟩ :=
    reads_confluent rd 40 0 hsur hsur' hout hout' huncut huncut' hfailed hfailed'
  exact ⟨rows', report, log, report', log', hrows, hout, hlookups, hout', hlookups', hsame⟩

end Snmp
