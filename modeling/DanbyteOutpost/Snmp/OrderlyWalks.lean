import DanbyteOutpost.Coop.Total
import DanbyteOutpost.Snmp.MacOrigin
import DanbyteOutpost.Snmp.RowAllowance
import DanbyteOutpost.Snmp.WalkTable

/-!
# Walks that only the row cap can cut

An agent answers every request as it should, and in time. Then every walk of a read has all the
agent's rows, or the allowance was spent and the agent has a row the walk has not (`Orderly`), in
the contexts of VLANs too. The walks are sure to end, with a bound on their requests that is the
agent's (`Ample`), so that the tasks of VLANs are fit for a pool that ends (`orderlyOne_endsIn`).

## Both accounts

Two things are counted here. The rows that the walks of a read have offered to the cap are those
of the agent's tables, as long as none was capped (`Offers`, `rowsOffered`). The requests are
counted by `Coro.within`: a walk has as many rounds at most as it has objects ahead of it, and
every method adds up those of its walks.

* `orderlyRound_within`, `orderlyLoop_within`: one round, and all of them.
* `orderlyWalk_within`: a walk, with its mark.
* `orderlyReadContext_within`: the context of a VLAN, whatever the others do.
-/

namespace Snmp

open Coop

/-! ### Rows offered -/

/-- The indexes of the rows the agent has in a table. -/
def Agent.indexes (agent : Agent) (access : Access) (columns : Columns) : List Oid :=
  (agent access).indexes (columns.items.map Prod.snd)

/-- How many rows they are. -/
def Agent.rowsIn (agent : Agent) (access : Access) (columns : Columns) : ℕ :=
  (agent.indexes access columns).length

namespace Outcome

/-- The rows the agent offers a walk that counts them. -/
def offered (agent : Agent) (o : Outcome) : ℕ :=
  if cappedColumns o.columns then agent.rowsIn o.access o.columns else 0

/-- The row cap stopped the walk, and there was a row more. -/
structure Capped (agent : Agent) (o : Outcome) : Prop where
  /-- Its rows count against the allowance. -/
  counted : cappedColumns o.columns = true
  /-- It does not call itself complete. -/
  incomplete : o.walked.complete = false
  /-- And it is not. -/
  missing : ∃ index ∈ agent.indexes o.access o.columns, index ∉ o.walked.rows.keys

variable {agent : Agent} {o : Outcome}

/-- The rows that a walk brought are rows of the agent. -/
theorem Sound.keys_subset (h : o.Sound agent) :
    o.walked.rows.keys ⊆ agent.indexes o.access o.columns :=
  fun index ↦ h.part.keys_subset index

/-- A walk admits no row that is not offered. -/
theorem Sound.admitted_le_offered (h : o.Sound agent) : o.admitted ≤ o.offered agent := by
  rw [admitted, offered]
  split
  · have hkeys : o.walked.rows.keys.length = o.walked.rows.items.length := List.length_map ..
    rw [← hkeys]
    exact (List.subperm_of_subset o.walked.rows.nodup h.keys_subset).length_le
  · exact le_rfl

/-- A walk that was cut by the cap has left a row out. -/
theorem Sound.admitted_lt_offered (h : o.Sound agent) (hcapped : o.Capped agent) :
    o.admitted < o.offered agent := by
  obtain ⟨index, hindex, hmissing⟩ := hcapped.missing
  rw [admitted, offered, if_pos hcapped.counted, if_pos hcapped.counted]
  have hkeys : o.walked.rows.keys.length = o.walked.rows.items.length := List.length_map ..
  have hmore : (index :: o.walked.rows.keys).length ≤
      (agent.indexes o.access o.columns).length := by
    refine (List.subperm_of_subset (List.nodup_cons.2 ⟨hmissing, o.walked.rows.nodup⟩) ?_).length_le
    exact List.cons_subset.2 ⟨hindex, h.keys_subset⟩
  rw [← hkeys]
  exact hmore

/-- A complete walk has every row. -/
theorem Sound.indexes_subset (h : o.Sound agent) (hcomplete : o.walked.complete = true) :
    agent.indexes o.access o.columns ⊆ o.walked.rows.keys := by
  intro index hindex
  obtain ⟨base, hbase, hmem⟩ := List.mem_flatMap.1 (List.mem_dedup.1 hindex)
  obtain ⟨e, he, hindexIn⟩ := List.mem_filterMap.1 hmem
  obtain ⟨hoid, hne⟩ := indexIn_eq_some.1 hindexIn
  have hcell : (agent o.access).cell base index = some e.2 :=
    Mib.cell_eq_some.2 ⟨hne, hoid ▸ Mib.mem_iff.1 he⟩
  obtain ⟨⟨key, oid⟩, hitem, rfl⟩ := List.mem_map.1 hbase
  have hread := h.cell_of_complete hcomplete (Dict.mem_items_iff.1 hitem) hcell
  exact mem_keys_of_cellOf (hread ▸ Option.some_ne_none e.2)

theorem Sound.offered_le_admitted (h : o.Sound agent) (hcomplete : o.walked.complete = true) :
    o.offered agent ≤ o.admitted := by
  rw [admitted, offered]
  split
  · have hkeys : o.walked.rows.keys.length = o.walked.rows.items.length := List.length_map ..
    rw [← hkeys]
    exact (List.subperm_of_subset (List.nodup_dedup _) (h.indexes_subset hcomplete)).length_le
  · exact le_rfl

end Outcome

/-- The rows the agent offered the capped walks of a log. -/
def rowsOffered (agent : Agent) (log : Log (net Outcome)) : ℕ := totalOf (Outcome.offered agent) log

/-- A task that runs alone has walked tables of `rows` rows in all. -/
def Offers (alone : Prop) (agent : Agent) (rows : ℕ)
    (w w' : World (net Outcome) ReadState) : Prop :=
  alone → rowsOffered agent w'.log = rowsOffered agent w.log + rows

theorem Offers.trans {alone : Prop} {agent : Agent} {rows rows' : ℕ}
    {w w' w'' : World (net Outcome) ReadState} (h : Offers alone agent rows w w')
    (h' : Offers alone agent rows' w' w'') : Offers alone agent (rows + rows') w w'' := by
  intro halone
  rw [h' halone, h halone, Nat.add_assoc]

/-! ### What a read keeps -/

/-- There was a walk of a table. -/
def Walked.In (access : Access) (columns : Columns) (log : Log (net Outcome)) : Prop :=
  ∃ walked : Walked String, .marked ⟨access, columns, walked⟩ ∈ log

theorem Walked.In.mono {access : Access} {columns : Columns} {log log' : Log (net Outcome)}
    (h : Walked.In access columns log) (hlog : log <:+ log') : Walked.In access columns log' := by
  obtain ⟨walked, hwalked⟩ := h
  exact ⟨walked, hlog.subset hwalked⟩

/-- Nothing went wrong, with a budget up to `d` and the `problems` there were before. -/
structure Undisturbed (d : ℚ) (problems : List String) (s : ReadState) : Prop where
  /-- The deadline is not moved. -/
  deadline : s.budget.deadline = d
  /-- The agent goes on answering. -/
  halted : s.halted = false
  /-- No complaint was added. -/
  problems : s.problems = problems
  /-- No context failed. -/
  failed : s.report.vlans.failed = []
  /-- And none is said to have. -/
  failures : s.contexts.failures = Dict.empty
  /-- The contexts are not given up. -/
  aborted : s.contexts.aborted = []

/-- What holds of a read all along. -/
structure Orderly (rd : MacRead) (agent : Agent) (d : ℚ) (problems : List String)
    (w : World (net Outcome) ReadState) : Prop extends Undisturbed d problems w.st where
  /-- A walk has read what is there, and all of it unless the row cap stopped it. -/
  walks : ∀ o, .marked o ∈ w.log →
    o.Sound agent ∧ (o.walked.complete = true ∨ o.Capped agent ∧ w.st.budget.truncated = true)
  /-- The budget is cut by the row cap alone, and only where there was a row more. -/
  spent : w.st.budget.truncated = true →
    w.st.budget.rowsLeft = 0 ∧ ∃ o, .marked o ∈ w.log ∧ o.Capped agent
  /-- A VLAN that is listed as read has had its table walked. -/
  read : ∀ vid ∈ w.st.report.vlans.read, Walked.In (rd.contextAuth vid) dFdbColumns w.log

variable {alone : Prop} {rd : MacRead} {agent : Agent} {d : ℚ} {problems : List String}
  {w : World (net Outcome) ReadState}

/-- What else the state keeps does not matter. -/
theorem Orderly.withState (h : Orderly rd agent d problems w) {s : ReadState}
    {problems' : List String} (hs : Undisturbed d problems' s) (hbudget : s.budget = w.st.budget)
    (hread : s.report.vlans.read = w.st.report.vlans.read) :
    Orderly rd agent d problems' ⟨s, w.log⟩ where
  toUndisturbed := hs
  walks := by
    rw [hbudget]
    exact h.walks
  spent := by
    rw [hbudget]
    exact h.spent
  read := by
    rw [hread]
    exact h.read

/-- A walk has all the agent's rows so far, or is not in the log. -/
theorem Orderly.cons (h : Orderly rd agent d problems w) {e : Event (net Outcome)}
    (he : ∀ o, e = .marked o → o.Sound agent ∧ o.walked.complete = true) :
    Orderly rd agent d problems ⟨w.st, e :: w.log⟩ where
  toUndisturbed := h.toUndisturbed
  walks := by
    intro o ho
    rcases List.mem_cons.1 ho with heq | ho
    · exact (he o heq.symm).imp_right .inl
    · exact h.walks o ho
  spent := by
    intro hcut
    obtain ⟨hleft, o, ho, hcapped⟩ := h.spent hcut
    exact ⟨hleft, o, List.mem_cons_of_mem _ ho, hcapped⟩
  read := fun vid hvid ↦ (h.read vid hvid).mono (List.suffix_cons _ _)

/-- A reading of the clock keeps a read orderly. -/
theorem Orderly.polled (h : Orderly rd agent d problems w) (p : Probe) (yes : Bool) :
    Orderly rd agent d problems ⟨w.st, .polled p yes :: w.log⟩ :=
  h.cons fun _ heq ↦ by cases heq

theorem Orderly.asked (h : Orderly rd agent d problems w) (q : Query) (r : Reply) :
    Orderly rd agent d problems ⟨w.st, .asked q r :: w.log⟩ :=
  h.cons fun _ heq ↦ by cases heq

/-- A row is taken from an allowance that is not spent. -/
theorem Orderly.takeRow (h : Orderly rd agent d problems w) (hleft : w.st.budget.rowsLeft ≠ 0) :
    Orderly rd agent d problems ⟨budgetRef.modify WalkBudget.takeRow w.st, w.log⟩ where
  toUndisturbed := ⟨h.deadline, h.halted, h.problems, h.failed, h.failures, h.aborted⟩
  walks := h.walks
  spent := fun hcut ↦ absurd (h.spent hcut).1 hleft
  read := h.read

/-- A walk found the allowance spent. -/
theorem Orderly.cut (h : Orderly rd agent d problems w) (hleft : w.st.budget.rowsLeft = 0)
    {o : Outcome} (hsound : o.Sound agent) (hcapped : o.Capped agent) :
    Orderly rd agent d problems
      ⟨budgetRef.modify (WalkBudget.stop "rows") w.st, .marked o :: w.log⟩ where
  toUndisturbed := ⟨h.deadline, h.halted, h.problems, h.failed, h.failures, h.aborted⟩
  walks := by
    intro o' ho'
    rcases List.mem_cons.1 ho' with heq | ho'
    · cases heq
      exact ⟨hsound, .inr ⟨hcapped, rfl⟩⟩
    · obtain ⟨hsound', hend⟩ := h.walks o' ho'
      exact ⟨hsound', hend.imp_right fun hcut ↦ ⟨hcut.1, rfl⟩⟩
  spent := fun _ ↦ ⟨hleft, o, List.mem_cons_self, hcapped⟩
  read := fun vid hvid ↦ (h.read vid hvid).mono (List.suffix_cons _ _)

/-- The rules of such a read, `alone` or not: what is asked is answered as the agent should, and in
time. -/
def orderlyRules (alone : Prop) (rd : MacRead) (agent : Agent) (d : ℚ) (problems : List String) :
    Rules (net Outcome) ReadState where
  answer := fun _ q r ↦ Conforms agent macColumns q r
  reading := fun _ p yes ↦ Probe.deadline p = d → yes = false
  inv := Orderly rd agent d problems
  alone := alone
  mayStop := False

/-! ### A walk -/

section Walk

variable {call : WalkCall String ReadState} (hcall : call.budget = some budgetRef)
  (hbases : call.bases ⊆ macColumns)

theorem Conforms.saysTimeout {columns : List Oid} {q : Query} {r : Reply}
    (h : Conforms agent columns q r) : r.saysTimeout = false := by
  cases h <;> rfl

/-- A request was answered, and `left` questions are left. -/
structure Answered (alone : Prop) (rd : MacRead) (agent : Agent) (d : ℚ) (problems : List String)
    (call : WalkCall String ReadState) (q : Query) (w : World (net Outcome) ReadState) (a : Attempt)
    (w' : World (net Outcome) ReadState) : Prop where
  /-- Nothing has gone wrong. -/
  orderly : Orderly rd agent d problems w'
  /-- Others may have spent rows in between. -/
  offers : Offers alone agent 0 w w'
  /-- The reply was one that conforms. -/
  reply : ∃ r, Conforms agent macColumns q r ∧ a = call.outcome r

include hcall in
/-- An attempt is one question. -/
theorem orderlyAttempt_within (h : Orderly rd agent d problems w) (q : Query) (n : ℕ) :
    (attempt call q).within (orderlyRules alone rd agent d problems)
      (fun a left w' ↦ left = n ∧ Answered alone rd agent d problems call q w a w') (n + 1) w := by
  rw [attempt_eq, outOfTime, hcall]
  intro late hlate
  obtain rfl : late = false := hlate h.deadline
  have h' : Orderly rd agent d problems
      ⟨w.st, .polled ⟨.request, w.st.budget.deadline⟩ false :: w.log⟩ := h.polled _ _
  refine ⟨n, rfl, h', fun w' hw' r hr ↦ ⟨rfl, hw'.inv.asked _ _, fun halone ↦ ?_, r, hr, rfl⟩⟩
  have hsame := hw'.same halone
  exact congrArg (fun w ↦ rowsOffered agent w.log) hsame

include hcall in
/-- A request is answered at the first attempt. -/
theorem orderlyRequest_within (h : Orderly rd agent d problems w) (q : Query) (n left : ℕ) :
    (request call q left).within (orderlyRules alone rd agent d problems)
      (fun a left w' ↦ left = n ∧ Answered alone rd agent d problems call q w a w') (n + 1) w := by
  cases left with
  | zero => exact orderlyAttempt_within hcall h q n
  | succ left =>
    rw [request, Coro.within_bind]
    refine Coro.within_mono (orderlyAttempt_within hcall h q n) fun a n' w' _ hend ↦ ?_
    obtain ⟨r, hr, rfl⟩ := hend.2.reply
    rw [call.saysTimeout_outcome, hr.saysTimeout, if_neg Bool.false_ne_true]
    exact hend

/-- How a walk that began in `w` ends: with all the agent's rows, or where the allowance is spent
and there is a row more. -/
inductive WalkFares (alone : Prop) (rd : MacRead) (agent : Agent) (d : ℚ) (problems : List String)
    (call : WalkCall String ReadState) (w : World (net Outcome) ReadState) (out : Walked String)
    (w' : World (net Outcome) ReadState) : Prop
  /-- It has all the rows. -/
  | whole (h : Orderly rd agent d problems w') (hoffers : Offers alone agent 0 w w')
      (hcomplete : out.complete = true) (hpart : PartOf (agent call.access) call out.rows)
      (hwhole : Whole (agent call.access) call out.rows)
  /-- The allowance is spent, and the budget is stopped for it. -/
  | cut (s : ReadState) (h : Orderly rd agent d problems ⟨s, w'.log⟩)
      (hoffers : Offers alone agent 0 w w')
      (hst : w'.st = budgetRef.modify (WalkBudget.stop "rows") s) (hcomplete : out.complete = false)
      (htruncated : out.stats.truncated = true) (hpart : PartOf (agent call.access) call out.rows)
      (hspent : Spent (agent call.access) call s out.rows)

/-- The loop of a walk that began in `w`, between two requests. -/
structure Faring (alone : Prop) (rd : MacRead) (agent : Agent) (d : ℚ) (problems : List String)
    (call : WalkCall String ReadState) (w : World (net Outcome) ReadState) (walker : Walker String)
    (w' : World (net Outcome) ReadState) : Prop where
  /-- Nothing has gone wrong. -/
  orderly : Orderly rd agent d problems w'
  /-- Others may have spent rows in between. -/
  offers : Offers alone agent 0 w w'
  /-- What it has read so far is there. -/
  sound : walker.Sound (agent call.access) call
  /-- It has not been cut. -/
  complete : walker.complete = true

/-- How a round ends: the walk does, or it goes on with less ahead. -/
inductive RoundFares (alone : Prop) (rd : MacRead) (agent : Agent) (d : ℚ) (problems : List String)
    (call : WalkCall String ReadState) (w : World (net Outcome) ReadState)
    (walker : Walker String) :
    Walked String ⊕ Walker String → World (net Outcome) ReadState → Prop
  /-- The walk ends. -/
  | ended (walked : Walked String) (w' : World (net Outcome) ReadState)
      (h : WalkFares alone rd agent d problems call w walked w') :
      RoundFares alone rd agent d problems call w walker (.inl walked) w'
  /-- It goes on. -/
  | next (walker' : Walker String) (w' : World (net Outcome) ReadState)
      (h : Faring alone rd agent d problems call w walker' w')
      (hlt : walker'.ahead (agent call.access) < walker.ahead (agent call.access)) :
      RoundFares alone rd agent d problems call w walker (.inr walker') w'

variable {walker : Walker String} {w' : World (net Outcome) ReadState}

include hcall in
/-- A response that is taken. -/
theorem orderlyRespond_within (h : Faring alone rd agent d problems call w walker w')
    (hopen : walker.active ≠ []) {binds : List Binding} (hne : binds ≠ [])
    (hanswers : Answers agent call.bases False (walker.query call) binds) (n : ℕ) :
    (do
      let t := walker.respond call binds (← Coro.get)
      Coro.modify fun _ ↦ t.st
      if t.cut then .inl <$> t.walker.cut call "rows"
      else return .inr (t.walker.close t.done) :
        Reader (Walked String ⊕ Walker String)).within (orderlyRules alone rd agent d problems)
      (fun out left w'' ↦ left = n ∧ RoundFares alone rd agent d problems call w walker out w'')
      n w' := by
  obtain ⟨htakes, hlt⟩ := h.sound.respond hopen hne hanswers (s := w'.st)
  have hrow : ∀ ref ∈ call.cap, ∀ s, (ref.get s).rowsLeft ≠ 0 →
      Orderly rd agent d problems ⟨s, w'.log⟩ →
        Orderly rd agent d problems ⟨ref.modify WalkBudget.takeRow s, w'.log⟩ := by
    intro ref href s hleft hs
    obtain rfl := Option.some.inj (hcall.symm.trans (WalkCall.budget_of_cap href))
    exact hs.takeRow hleft
  have horderly : Orderly rd agent d problems ⟨(walker.respond call binds w'.st).st, w'.log⟩ :=
    (Taken.bindings_st (P := fun s ↦ Orderly rd agent d problems ⟨s, w'.log⟩) hrow
      (t := walker.takeFrom w'.st) h.orderly rfl).1
  rw [Coro.within_bind, Coro.within_get, Coro.within_bind, Coro.within_modify]
  split
  case isTrue hcut =>
    rw [Walker.cut, hcall]
    exact ⟨rfl, .ended _ _ (.cut _ horderly h.offers rfl rfl rfl htakes.part (htakes.spent hcut))⟩
  case isFalse hno =>
    have huncut := Bool.eq_false_of_not_eq_true hno
    obtain ⟨at_, hinStep⟩ := htakes.open_ huncut
    refine ⟨rfl, .next _ _ ⟨horderly, h.offers, hinStep.sound, ?_⟩ (hlt huncut)⟩
    exact (htakes.complete not_false).trans h.complete

include hcall hbases in
/-- The step lemma of a walk: a round asks once at most. -/
theorem orderlyRound_within (h : Faring alone rd agent d problems call w walker w') (n : ℕ) :
    (walkRound call walker).within (orderlyRules alone rd agent d problems)
      (fun out left w'' ↦ n ≤ left ∧ RoundFares alone rd agent d problems call w walker out w'')
      (n + 1) w' := by
  rw [walkRound]
  split
  case isTrue hdone =>
    exact ⟨Nat.le_succ n, .ended _ _ (.whole h.orderly h.offers h.complete h.sound.reads.part
      (h.sound.whole hdone h.complete))⟩
  case isFalse hopen =>
  rw [Coro.within_bind]
  refine Coro.within_mono (orderlyRequest_within hcall h.orderly (walker.query call) n _)
    fun a left w₁ _ hend ↦ ?_
  obtain ⟨hleft, hanswered⟩ := hend
  have h' : Faring alone rd agent d problems call w walker w₁ :=
    ⟨hanswered.orderly, h.offers.trans hanswered.offers, h.sound, h.complete⟩
  have hlen : (walker.query call).cursors.length = walker.active.length := List.length_map ..
  obtain ⟨r, hr, ha⟩ := hanswered.reply
  subst hleft ha
  cases hr.anti hbases with
  | rows text index binds hne hgives =>
    have hbinds : binds ≠ [] := hne fun hnil ↦ hopen (List.map_eq_nil_iff.1 hnil)
    dsimp only [WalkCall.outcome]
    rw [if_pos rfl, if_neg hbinds]
    refine Coro.within_mono (orderlyRespond_within hcall h' hopen hbinds hgives left)
      fun out left' w₂ _ hend ↦ ⟨hend.1.ge, hend.2⟩
  | noSuchName text index binds hindex hended =>
    rw [hlen] at hindex
    obtain ⟨hsound, hlt⟩ := h.sound.pop hindex hended
    dsimp only [WalkCall.outcome]
    rw [if_neg (by decide), if_pos ⟨rfl, hindex⟩]
    exact ⟨le_rfl, .next _ _ ⟨h'.orderly, h'.offers, hsound, h.complete⟩ hlt⟩
  | tooBig text index binds hmany =>
    obtain ⟨hsound, hlt⟩ := h.sound.halve hmany
    dsimp only [WalkCall.outcome]
    rw [if_neg (by decide), if_neg fun hno ↦ absurd hno.1 (by decide), if_pos ⟨rfl, hmany⟩]
    exact ⟨le_rfl, .next _ _ ⟨h'.orderly, h'.offers, hsound, h.complete⟩ hlt⟩

include hcall hbases in
/-- The run lemma of a walk: it is sure to end, and asks once a round at most. -/
theorem orderlyLoop_within {fuel n : ℕ} (h : Faring alone rd agent d problems call w walker w')
    (hfuel : walker.ahead (agent call.access) < fuel) (hn : walker.ahead (agent call.access) < n) :
    (walkLoop call fuel walker).within (orderlyRules alone rd agent d problems)
      (fun out left w'' ↦ n ≤ left + walker.ahead (agent call.access) + 1 ∧
        WalkFares alone rd agent d problems call w out w'') n w' := by
  induction fuel generalizing walker n w' with
  | zero => exact absurd hfuel (Nat.not_lt_zero _)
  | succ fuel ih =>
    obtain ⟨n, rfl⟩ : ∃ n', n = n' + 1 := ⟨n - 1, by omega⟩
    rw [walkLoop_succ, Coro.within_bind]
    refine Coro.within_mono (orderlyRound_within hcall hbases h n)
      fun out left w₁ _ ⟨hle, hround⟩ ↦ ?_
    cases hround with
    | ended walked w₁ hends => exact ⟨by omega, hends⟩
    | next walker' w₁ hfares hlt =>
      refine Coro.within_mono (ih hfares (by omega) (by omega))
        fun out left' w₂ _ ⟨hle', hends⟩ ↦ ?_
      exact ⟨by omega, hends⟩

end Walk

/-! ### The walks of a read -/

/-- The tables a read may walk. -/
def readColumns : List Columns :=
  [baseColumns, vlanFdbColumns, qFdbColumns, dFdbColumns, nameColumns, stackColumns, vtpColumns,
    entLogicalColumns]

/-- The columns of a read are those it may walk. -/
theorem bases_subset {columns : Columns} (h : columns ∈ readColumns) :
    columns.items.map Prod.snd ⊆ macColumns :=
  fun _ hoid ↦ List.mem_flatMap.2 ⟨columns, h, hoid⟩

/-- No walk in a context has `b` rounds ahead. -/
def Ample (agent : Agent) (access : Access) (b : ℕ) : Prop :=
  ∀ columns ∈ readColumns,
    (MacRead.call columns access true macMaxRepetitions).start.ahead (agent access) < b

/-- With ample fuel, a walk has less ahead than it has fuel. -/
theorem Ample.ahead_lt {access : Access} {b : ℕ} (h : Ample agent access b) {columns : Columns}
    (hcolumns : columns ∈ readColumns) {capRows : Bool} {maxRep : ℤ}
    (hmaxRep : maxRep ≤ macMaxRepetitions) :
    (MacRead.call columns access capRows maxRep).start.ahead (agent access) < b := by
  have hle : (MacRead.call columns access capRows maxRep).start.ahead (agent access) ≤
      (MacRead.call columns access true macMaxRepetitions).start.ahead (agent access) :=
    Nat.add_le_add_left (Int.toNat_le_toNat hmaxRep) _
  exact hle.trans_lt (h columns hcolumns)

/-- What a walk that began in `w` leaves. -/
structure WalkDone (alone : Prop) (rd : MacRead) (agent : Agent) (d : ℚ) (problems : List String)
    (access : Access) (columns : Columns) (w : World (net Outcome) ReadState) (out : Walked String)
    (w' : World (net Outcome) ReadState) : Prop where
  /-- Nothing has gone wrong. -/
  orderly : Orderly rd agent d problems w'
  /-- Its rows were taken from the allowance. -/
  offers : Offers alone agent (Outcome.offered agent ⟨access, columns, out⟩) w w'
  /-- It has left its mark. -/
  mark : .marked ⟨access, columns, out⟩ ∈ w'.log
  /-- It is complete, or the row cap stopped it. -/
  ends : out.complete = true ∨
    cappedColumns columns = true ∧ out.complete = false ∧ out.stats.truncated = true

namespace MacRead

variable {fuel b n : ℕ} {columns : Columns} {access : Access} {capRows : Bool} {maxRep : ℤ}

/-- A walk ends within its share of requests, having offered the rows of its table. -/
theorem orderlyWalk_within (hcolumns : columns ∈ readColumns)
    (hcapped : cappedColumns columns = capRows) (hmaxRep : maxRep ≤ macMaxRepetitions)
    (hample : Ample agent access b) (hfuel : b ≤ fuel) (hn : b ≤ n)
    (h : Orderly rd agent d problems w) :
    (walk fuel columns access capRows maxRep).within (orderlyRules alone rd agent d problems)
      (fun out left w' ↦ n ≤ left + b ∧ WalkDone alone rd agent d problems access columns w out w')
      n w := by
  have hahead : (call columns access capRows maxRep).start.ahead (agent access) < b :=
    hample.ahead_lt hcolumns hmaxRep
  have hbegin : Faring alone rd agent d problems (call columns access capRows maxRep) w
      (call columns access capRows maxRep).start w := ⟨h, fun _ ↦ rfl, sound_start _ _, rfl⟩
  refine Coro.within_bind.2 (Coro.within_mono (orderlyLoop_within rfl (bases_subset hcolumns) hbegin
    (hahead.trans_le hfuel) (hahead.trans_le hn)) fun out left w' _ ⟨hle, hends⟩ ↦ ?_)
  have hle' : n ≤ left + (call columns access capRows maxRep).start.ahead (agent access) + 1 := hle
  refine Coro.within_bind.2 (Coro.within_mark.2 ⟨by omega, ?_⟩)
  cases hends with
  | whole h' hoffers hcomplete hpart hwhole =>
    refine ⟨h'.cons ?_, fun halone ↦ congrArg (· + _) (hoffers halone), List.mem_cons_self,
      .inl hcomplete⟩
    rintro o ⟨⟩
    exact ⟨⟨⟨hpart.cell, hpart.row⟩, fun _ ↦ hwhole⟩, hcomplete⟩
  | cut s h' hoffers hst hcomplete htruncated hpart hspent =>
    obtain ⟨ref, href, hleft, key, hkey, index, text, hcell, hrow⟩ := hspent
    obtain rfl := Option.some.inj (WalkCall.budget_of_cap href)
    have hcounted : cappedColumns columns = true := by
      rw [hcapped]
      cases capRows with
      | true => rfl
      | false => cases href
    rw [hst]
    refine ⟨h'.cut hleft ⟨⟨hpart.cell, hpart.row⟩, fun hno ↦ ?_⟩
      ⟨hcounted, hcomplete, index, ?_, ?_⟩,
      fun halone ↦ congrArg (· + _) (hoffers halone), List.mem_cons_self,
      .inr ⟨hcounted, hcomplete, htruncated⟩⟩
    · exact absurd (hcomplete.symm.trans hno) Bool.false_ne_true
    · exact Mib.mem_indexes (WalkCall.base_mem hkey) hcell
    · exact Dict.get?_eq_none_iff.1 hrow

/-- A walk in the default context, with the note of its end. -/
theorem orderlyWalkDefault_within (hcolumns : columns ∈ readColumns)
    (hcapped : cappedColumns columns = capRows) (hmaxRep : maxRep ≤ macMaxRepetitions)
    (hample : Ample agent rd.access b) (hfuel : b ≤ fuel) (hn : b ≤ n)
    (h : Orderly rd agent d problems w) {what : String} :
    (rd.walkDefault fuel what columns capRows maxRep).within
      (orderlyRules alone rd agent d problems)
      (fun out left w' ↦
        n ≤ left + b ∧ WalkDone alone rd agent d problems rd.access columns w out w')
      n w := by
  refine Coro.within_bind.2 (Coro.within_mono
    (orderlyWalk_within hcolumns hcapped hmaxRep hample hfuel hn h)
    fun out left w' _ ⟨hle, hend⟩ ↦ ?_)
  split
  case isTrue => exact ⟨hle, hend⟩
  case isFalse hno =>
    obtain ⟨-, -, htruncated⟩ := hend.ends.resolve_left hno
    have hnote : w'.st.note what out.stats = w'.st := by
      rw [ReadState.note, if_pos htruncated]
    refine Coro.within_bind.2 (Coro.within_modify.2 ?_)
    rw [hnote]
    exact ⟨hle, hend⟩

theorem orderlyCanWalk_within (h : Orderly rd agent d problems w) :
    canWalk.within (orderlyRules alone rd agent d problems)
      (fun _ left w' ↦ left = n ∧ Orderly rd agent d problems w' ∧ Offers alone agent 0 w w')
      n w := by
  refine Coro.within_bind.2 (Coro.within_get.2 ?_)
  split
  · exact ⟨rfl, h, fun _ ↦ rfl⟩
  · exact Coro.within_bind.2 (Coro.within_poll.2 fun late _ ↦ ⟨rfl, h.polled _ _, fun _ ↦ rfl⟩)

/-- The stack table offers no rows to the cap. -/
theorem orderlyReadStack_within (hample : Ample agent rd.access b) (hfuel : b ≤ fuel) (hn : b ≤ n)
    (h : Orderly rd agent d problems w) :
    (rd.readStack fuel).within (orderlyRules alone rd agent d problems)
      (fun _ left w' ↦ n ≤ left + b ∧ Orderly rd agent d problems w' ∧ Offers alone agent 0 w w')
      n w := by
  refine Coro.within_bind.2 (Coro.within_get.2 ?_)
  split
  case isTrue => exact ⟨Nat.le_add_right n b, h, fun _ ↦ rfl⟩
  case isFalse =>
  refine Coro.within_bind.2 (Coro.within_mono (orderlyCanWalk_within h)
    fun yes left w₁ _ ⟨hleft, h₁, hoffers₁⟩ ↦ ?_)
  subst hleft
  split
  case isFalse => exact ⟨Nat.le_add_right left b, h₁, hoffers₁⟩
  case isTrue =>
    refine Coro.within_bind.2 (Coro.within_mono (orderlyWalkDefault_within (by decide) (by decide)
      le_rfl hample hfuel hn h₁) fun out left' w₂ _ ⟨hle, hend⟩ ↦
        Coro.within_modify.2 ⟨hle, ?_, ?_⟩)
    · have h₂ := hend.orderly
      exact h₂.withState ⟨h₂.deadline, h₂.halted, h₂.problems, h₂.failed, h₂.failures, h₂.aborted⟩
        rfl rfl
    · exact hoffers₁.trans hend.offers

theorem orderlyLearned_within (hample : Ample agent rd.access b) (hfuel : b ≤ fuel) (hn : b ≤ n)
    (h : Orderly rd agent d problems w) (entries : List Entry) (base : Dict Oid String) :
    (rd.learned fuel entries base).within (orderlyRules alone rd agent d problems)
      (fun _ left w' ↦ n ≤ left + b ∧ Orderly rd agent d problems w' ∧ Offers alone agent 0 w w')
      n w := by
  refine Coro.within_bind.2 (Coro.within_get.2 (Coro.within_bind.2 (Coro.within_modify.2 ?_)))
  have h₁ := h.withState (s := { w.st with
      report := { w.st.report with dropped :=
        (learnedRows rd.ifaces entries base w.st.report.dropped).dropped }
      portMaps := w.st.portMaps ++
        (learnedRows rd.ifaces entries base w.st.report.dropped).portMap.toList })
    ⟨h.deadline, h.halted, h.problems, h.failed, h.failures, h.aborted⟩ rfl rfl
  split
  case isTrue => exact ⟨Nat.le_add_right n b, h₁, fun _ ↦ rfl⟩
  case isFalse =>
    refine Coro.within_bind.2 (Coro.within_mono (orderlyReadStack_within hample hfuel hn h₁)
      fun _ left w₂ _ h₂ ↦ Coro.within_bind.2 (Coro.within_get.2 ?_))
    split
    · exact h₂
    · exact h₂

/-! ### The contexts of VLANs -/

/-- A context ends within three walks' requests, and its table was read whole unless the rows ran
out. -/
theorem orderlyReadContext_within {vid : ℤ} (hdefault : Ample agent rd.access b)
    (hcontext : Ample agent (rd.contextAuth vid) b) (hfuel : b ≤ fuel) (hn : 3 * b ≤ n)
    (h : Orderly rd agent d problems w) :
    (rd.readContext fuel vid).within (orderlyRules alone rd agent d problems)
      (fun out _ w' ↦ Orderly rd agent d problems w' ∧
        (out.1 = true ∧ Walked.In (rd.contextAuth vid) dFdbColumns w'.log ∨
          out.1 = false ∧ out.2.2 = "")) n w := by
  refine Coro.within_bind.2 (Coro.within_mono (orderlyWalk_within (by decide) (by decide) le_rfl
    hcontext hfuel (by omega) h) fun base left w₁ _ ⟨hle₁, hbase⟩ ↦ ?_)
  have hcomplete : base.complete = true :=
    hbase.ends.resolve_right fun hno ↦ absurd hno.1 (by decide)
  dsimp only
  rw [hcomplete, if_neg (by decide)]
  refine Coro.within_bind.2 (Coro.within_mono (orderlyWalk_within (by decide) (by decide) le_rfl
    hcontext hfuel (by omega) hbase.orderly) fun fdb left' w₂ _ ⟨hle₂, hfdb⟩ ↦ ?_)
  refine Coro.within_bind.2 (Coro.within_mono (orderlyLearned_within hdefault hfuel (by omega)
    hfdb.orderly _ _) fun rows left'' w₃ hlog ⟨_, h₃, _⟩ ↦ ⟨h₃, ?_⟩)
  rcases hfdb.ends with hyes | ⟨-, hno, htruncated⟩
  · exact .inl ⟨hyes, fdb, hlog.subset hfdb.mark⟩
  · refine .inr ⟨hno, ?_⟩
    show (if fdb.complete then "" else if fdb.stats.truncated then "" else why fdb.stats) = ""
    rw [hno, htruncated]
    rfl

/-- A VLAN that is skipped. -/
theorem orderly_skip (h : Orderly rd agent d problems w) (vid : ℤ) :
    Orderly rd agent d problems ⟨skip vid w.st, w.log⟩ :=
  h.withState ⟨h.deadline, h.halted, h.problems, h.failed, h.failures, h.aborted⟩ rfl rfl

/-- The end of a context keeps the read orderly. -/
theorem orderly_settle (h : Orderly rd agent d problems w) {vid : ℤ} {ok : Bool} (rows : List Row)
    {failure : String} (hend : ok = true ∧ Walked.In (rd.contextAuth vid) dFdbColumns w.log ∨
      ok = false ∧ failure = "") :
    Orderly rd agent d problems ⟨settle vid ok rows failure w.st, w.log⟩ := by
  rcases hend with ⟨rfl, hwalked⟩ | ⟨rfl, rfl⟩
  · refine ⟨⟨h.deadline, h.halted, h.problems, h.failed, h.failures, h.aborted⟩, h.walks, h.spent,
      fun vid' hvid' ↦ ?_⟩
    rcases List.mem_append.1 hvid' with hold | hnew
    · exact h.read vid' hold
    · obtain rfl := List.mem_singleton.1 hnew
      exact hwalked
  · exact h.withState ⟨h.deadline, h.halted, h.problems, h.failed, h.failures, h.aborted⟩ rfl rfl

/-- The task of a VLAN is sure to end, and leaves everything in order. -/
theorem orderlyOne_endsIn (hdefault : Ample agent rd.access b) {vid : ℤ}
    (hcontext : Ample agent (rd.contextAuth vid) b) (hfuel : b ≤ fuel) :
    (rd.one fuel vid).EndsIn (orderlyRules alone rd agent d problems) (3 * b) := by
  intro w h
  refine Coro.within_bind.2 (Coro.within_get.2 ?_)
  split
  case isTrue => exact orderly_skip h vid
  case isFalse =>
  refine Coro.within_bind.2 (Coro.within_poll.2 fun late hlate ↦ ?_)
  obtain rfl : late = false := hlate h.deadline
  rw [if_neg Bool.false_ne_true]
  refine Coro.within_bind.2 (Coro.within_mono (orderlyReadContext_within hdefault hcontext hfuel
    le_rfl (h.polled _ _)) fun out left w' _ ⟨h', hend⟩ ↦ ?_)
  exact orderly_settle h' out.2.1 hend

end MacRead

end Snmp
