import DanbyteOutpost.Coop.Ledger
import DanbyteOutpost.Snmp.ContextLists
import DanbyteOutpost.Snmp.WalkEnds

/-!
# The row allowance of a read

The capped walks of a MAC-table read, in the default context and in those of VLANs, take their rows
from one allowance. At every moment of a read, whatever the agent answers and whichever context
goes on, what is left of it is the cap less the rows the walks have admitted
(`ComesTo.rows_left_eq`): those of the walks that ended, which are in their marks, and those that a
walk under way has in hand, which it would report if its request failed.

## The ledger of a read

`rowLedger` counts what a mark accounts for, which is the rows that its walk admitted, and asks of
a waiting walk what it would report if its request raised. A binding that makes a new row takes
one from the allowance and puts one on the walk's account (`Taken.binding_pays`); nothing else
touches either. The methods of a read balance since their walks do, and `ComesTo` is any moment of
a read, in the default context or in those of VLANs.
-/

namespace Snmp

open Coop

/-- The walks that count their rows: those of the forwarding tables. -/
def cappedColumns (columns : Columns) : Bool := columns = qFdbColumns || columns = dFdbColumns

/-- The rows a walk that ended has admitted. -/
def Outcome.admitted (o : Outcome) : ℕ :=
  if cappedColumns o.columns then o.walked.rows.items.length else 0

/-- How the allowance of a read is accounted for. -/
def rowLedger : Ledger (net Outcome) ReadState where
  stock := fun s ↦ s.budget.rowsLeft
  settled := Outcome.admitted
  failure := .raised ""

/-- The rows the capped walks of a read have admitted: those of the walks that ended, and those in
hand. -/
def rowsAdmitted (pool : Pool (net Outcome) ReadState) : ℕ :=
  rowLedger.settledIn pool.log + inHandOf rowLedger pool.st pool.parked

/-! ### A response -/

section Walk

variable {call : WalkCall String ReadState} (hcall : call.budget = some budgetRef)

/-- The rows a walk has taken from the allowance. -/
def rowsTaken (call : WalkCall String ReadState) (rows : Rows String) : ℕ :=
  if call.capRows then rows.items.length else 0

/-- What a step of a response takes from the allowance it adds to the rows. -/
def Taken.Pays (call : WalkCall String ReadState) (t t' : Taken String ReadState) : Prop :=
  t'.st.budget.rowsLeft + rowsTaken call t'.walker.rows =
    t.st.budget.rowsLeft + rowsTaken call t.walker.rows

include hcall in
/-- A cell of a new row takes one row of the allowance; one of a row that is there takes none. -/
theorem Taken.cell_pays (index : Oid) (key text : String) (t : Taken String ReadState) :
    t.Pays call (t.cell call index key text) := by
  rw [Pays]
  cases t.cell_move call index key text with
  | old row hrow heq =>
    have hlength : (Rows.setCell t.walker.rows index row key text).items.length =
        t.walker.rows.items.length :=
      Dict.length_set_of_mem (Dict.mem_keys_iff.2 ⟨row, hrow⟩) _
    rw [heq]
    show t.st.budget.rowsLeft + rowsTaken call (Rows.setCell t.walker.rows index row key text) = _
    rw [rowsTaken, hlength, rowsTaken]
  | new s hrow hst heq =>
    have hlength : (Rows.setCell t.walker.rows index Dict.empty key text).items.length =
        t.walker.rows.items.length + 1 :=
      Dict.length_set_of_not_mem (Dict.get?_eq_none_iff.1 hrow) _
    rw [heq]
    show s.budget.rowsLeft +
      rowsTaken call (Rows.setCell t.walker.rows index Dict.empty key text) = _
    rw [rowsTaken, hlength, rowsTaken]
    rw [WalkCall.cap, hcall] at hst
    cases hcap : call.capRows with
    | false =>
      rw [hcap] at hst
      rcases hst with ⟨-, rfl⟩ | ⟨ref, href, -⟩
      · rfl
      · cases href
    | true =>
      rw [hcap] at hst
      rcases hst with ⟨hnone, -⟩ | ⟨ref, href, hleft, rfl⟩
      · cases hnone
      · obtain rfl := Option.some.inj href
        change t.st.budget.rowsLeft ≠ 0 at hleft
        show t.st.budget.rowsLeft - 1 + (t.walker.rows.items.length + 1) =
          t.st.budget.rowsLeft + t.walker.rows.items.length
        omega
  | cut ref _ _ _ heq => rw [heq]

include hcall in
theorem Taken.binding_pays (key : String) (b : Binding) (t : Taken String ReadState) :
    t.Pays call (t.binding call key b) := by
  rw [Taken.binding]
  split
  · rfl
  · split
    · split
      · rfl
      · exact Taken.cell_pays hcall ..
    · rfl

include hcall in
/-- A response takes from the allowance what it adds to the rows. -/
theorem Taken.bindings_pays {active : List String} {bs : List Binding} {i : ℕ}
    {t : Taken String ReadState} : t.Pays call (t.bindings call active i bs) := by
  induction bs generalizing i t with
  | nil => rfl
  | cons b bs ih =>
    rw [Taken.bindings]
    split
    · rfl
    case h_2 key _ =>
      dsimp only
      split
      · exact Taken.binding_pays hcall key b t
      · exact ih.trans (Taken.binding_pays hcall key b t)

/-! ### A request -/

/-- The reply that fails makes a request fail. -/
def failedAttempt : Attempt := .failed ("snmp error: " ++ "") false

variable {β : Type} {m : Outcome} {F : Attempt → Reader β}

include hcall in
/-- A request owes nothing: it takes no row. -/
theorem attempt_balances (hF : ∀ a, (F a).BalancesWith rowLedger m.admitted)
    (hfail : (F failedAttempt).Marks m) (q : Query) :
    (attempt call q >>= F).BalancesWith rowLedger m.admitted := by
  rw [attempt_eq, outOfTime, hcall]
  intro s late
  cases late with
  | true => exact hF .cut s
  | false => exact ⟨m, rfl, fun s' ↦ ⟨hfail s', fun r ↦ hF _ s'⟩⟩

include hcall in
/-- What a walk has in hand while it asks, and again. -/
theorem request_balances (hF : ∀ a, (F a).BalancesWith rowLedger m.admitted)
    (hfail : (F failedAttempt).Marks m) (q : Query) (left : ℕ) :
    (request call q left >>= F).BalancesWith rowLedger m.admitted := by
  induction left with
  | zero => exact attempt_balances hcall hF hfail q
  | succ left ih =>
    rw [request, bind_assoc]
    refine attempt_balances hcall (fun a ↦ ?_) ?_ q
    · split
      · exact ih
      · exact hF a
    · exact hfail

/-! ### A walk -/

/-- `G` goes on where a round ends: it marks the log with the outcome of a walk that has ended. -/
structure EndsInMark (call : WalkCall String ReadState) (mark : Walked String → Outcome)
    (G : Walked String ⊕ Walker String → Reader β) : Prop where
  /-- The mark accounts for the rows that were taken. -/
  admitted : ∀ walked, (mark walked).admitted = rowsTaken call walked.rows
  /-- A walk that has ended leaves its mark. -/
  marks : ∀ walked, (G (.inl walked)).Marks (mark walked)
  /-- And has the rows in hand until then. -/
  ended : ∀ walked, (G (.inl walked)).BalancesWith rowLedger (rowsTaken call walked.rows)
  /-- As it has while it goes on. -/
  next : ∀ w, (G (.inr w)).BalancesWith rowLedger (rowsTaken call w.rows)

variable {G : Walked String ⊕ Walker String → Reader β} {mark : Walked String → Outcome}

include hcall in
/-- A walk that is cut off has paid for its rows, and says so in its mark. -/
theorem cut_balances (hG : EndsInMark call mark G) (w : Walker String) (reason : String) :
    ((.inl <$> w.cut call reason : Reader (Walked String ⊕ Walker String)) >>= G).BalancesWith
      rowLedger (rowsTaken call w.rows) := by
  rw [bind_map_left, Walker.cut, hcall]
  exact fun s ↦ hG.ended (w.stopped w.error false true)
    (budgetRef.modify (WalkBudget.stop reason) s)

include hcall in
/-- The step lemma of a walk: a round takes from the allowance what it adds to the rows. -/
theorem walkRound_balances (hG : EndsInMark call mark G) (w : Walker String) :
    (walkRound call w >>= G).BalancesWith rowLedger (rowsTaken call w.rows) := by
  rw [walkRound]
  split
  case isTrue => exact hG.ended w.finished
  case isFalse =>
  -- a request that raises leaves the walk with the rows it has
  have hrows : (mark (w.stopped ("snmp error: " ++ "") false false)).admitted =
      rowsTaken call w.rows :=
    hG.admitted _
  rw [bind_assoc, ← hrows]
  refine request_balances hcall (fun a ↦ ?_) (hG.marks _) _ _
  rw [hrows]
  rcases a with - | ⟨error, timeout⟩ | ⟨- | e, status, statusText, index, binds⟩
  · exact cut_balances hcall hG w "time"
  · exact hG.ended (w.stopped error timeout false)
  · dsimp only
    split
    · split
      · exact hG.ended (w.stopped "empty response" false false)
      · intro s
        -- a response takes as many rows from the allowance as it adds to the walk
        have hpays : (w.respond call binds s).st.budget.rowsLeft +
            rowsTaken call (w.respond call binds s).walker.rows =
              s.budget.rowsLeft + rowsTaken call w.rows :=
          Taken.bindings_pays hcall
        have hrest : ((if (w.respond call binds s).cut then
              .inl <$> (w.respond call binds s).walker.cut call "rows"
            else return .inr ((w.respond call binds s).walker.close (w.respond call binds s).done) :
              Reader (Walked String ⊕ Walker String)) >>= G).BalancesWith rowLedger
                (rowsTaken call (w.respond call binds s).walker.rows) := by
          split
          · exact cut_balances hcall hG _ "rows"
          · exact hG.next ((w.respond call binds s).walker.close (w.respond call binds s).done)
        have hthis := hrest (w.respond call binds s).st
        change Res.balances rowLedger _ ((w.respond call binds s).st.budget.rowsLeft + _) at hthis
        rw [hpays] at hthis
        exact hthis
    · split
      · exact hG.next (w.pop index)
      · split
        · exact hG.next w.halve
        · exact hG.ended (w.stopped statusText false false)
  · exact hG.ended (w.stopped e.text e.isTimeout false)

include hcall in
/-- The run lemma of a walk: by induction on the fuel. -/
theorem walkLoop_balances {f : Walked String → Reader β}
    (hadmitted : ∀ walked, (mark walked).admitted = rowsTaken call walked.rows)
    (hmarks : ∀ walked, (f walked).Marks (mark walked))
    (hended : ∀ walked, (f walked).BalancesWith rowLedger (rowsTaken call walked.rows)) (fuel : ℕ)
    (w : Walker String) :
    (walkLoop call fuel w >>= f).BalancesWith rowLedger (rowsTaken call w.rows) := by
  induction fuel generalizing w with
  | zero => exact fun _ ↦ trivial
  | succ fuel ih =>
    rw [walkLoop_succ, bind_assoc]
    exact walkRound_balances hcall ⟨hadmitted, hmarks, hended, ih⟩ w

end Walk

/-! ### The methods of a read -/

namespace MacRead

variable {rd : MacRead} {fuel : ℕ} {columns : Columns} {capRows : Bool}

/-- A walk balances: it takes as many rows of the allowance as it marks. -/
theorem walk_balances (access : Access) (maxRep : ℤ) (hcapped : cappedColumns columns = capRows) :
    (walk fuel columns access capRows maxRep).Balances rowLedger := by
  have hadmitted : ∀ walked : Walked String, Outcome.admitted ⟨access, columns, walked⟩ =
      rowsTaken (call columns access capRows maxRep) walked.rows := by
    intro walked
    rw [Outcome.admitted, hcapped]
    rfl
  have hcall : (call columns access capRows maxRep).budget = some budgetRef := rfl
  have hmark : ∀ walked : Walked String, Coro.BalancesWith rowLedger
      (rowsTaken (call columns access capRows maxRep) walked.rows) (do
        Coro.mark (I := net Outcome) ⟨access, columns, walked⟩
        return walked : Reader (Walked String)) := by
    intro walked s
    exact ⟨s.budget.rowsLeft, congrArg _ (hadmitted walked).symm, rfl⟩
  have hloop := walkLoop_balances hcall hadmitted (fun _ _ ↦ rfl) hmark fuel
    (call columns access capRows maxRep).start
  intro s
  have hthis := hloop s
  have hnone : rowsTaken (call columns access capRows maxRep)
      (call columns access capRows maxRep).start.rows = 0 := by
    rw [rowsTaken]
    split <;> rfl
  rw [hnone] at hthis
  exact hthis

theorem walkDefault_balances (what : String) (maxRep : ℤ)
    (hcapped : cappedColumns columns = capRows) :
    (rd.walkDefault fuel what columns capRows maxRep).Balances rowLedger := by
  refine Coro.balances_bind (walk_balances rd.access maxRep hcapped) fun out ↦ ?_
  split
  · exact Coro.balances_pure out
  · refine Coro.balances_bind (Coro.balances_modify fun s ↦ ?_) fun _ ↦ Coro.balances_pure out
    rw [ReadState.note]
    split <;> rfl

theorem canWalk_balances : canWalk.Balances rowLedger := by
  refine Coro.balances_bind Coro.balances_get fun s ↦ ?_
  split
  · exact Coro.balances_pure false
  · exact Coro.balances_bind (Coro.balances_poll _) fun late ↦ Coro.balances_pure _

theorem namedVlans_balances : (rd.namedVlans fuel).Balances rowLedger := by
  refine Coro.balances_bind canWalk_balances fun yes ↦ ?_
  split
  · exact Coro.balances_bind (walkDefault_balances _ _ (by decide)) fun names ↦ Coro.balances_pure _
  · exact Coro.balances_pure _

theorem qbridgeVlans_balances (entries : List Entry) (vlanFdb : Dict Oid String) (complete : Bool) :
    (rd.qbridgeVlans fuel entries vlanFdb complete).Balances rowLedger := by
  have hnamed : (if vlanFdb.items.isEmpty && complete then some <$> rd.namedVlans fuel
      else pure none : Reader (Option (List ℤ))).Balances rowLedger := by
    split
    · exact Coro.balances_bind namedVlans_balances fun vids ↦ Coro.balances_pure _
    · exact Coro.balances_pure none
  exact Coro.balances_bind hnamed fun named ↦
    Coro.balances_bind (Coro.balances_modify fun _ ↦ rfl) fun _ ↦ Coro.balances_pure _

theorem readStack_balances : (rd.readStack fuel).Balances rowLedger := by
  refine Coro.balances_bind Coro.balances_get fun s ↦ ?_
  split
  · exact Coro.balances_pure ()
  · refine Coro.balances_bind canWalk_balances fun yes ↦ ?_
    split
    · exact Coro.balances_bind (walkDefault_balances _ _ (by decide)) fun stack ↦
        Coro.balances_modify fun _ ↦ rfl
    · exact Coro.balances_pure ()

theorem learned_balances (entries : List Entry) (base : Dict Oid String) :
    (rd.learned fuel entries base).Balances rowLedger := by
  refine Coro.balances_bind Coro.balances_get fun s ↦
    Coro.balances_bind (Coro.balances_modify fun _ ↦ rfl) fun _ ↦ ?_
  split
  · exact Coro.balances_pure _
  · refine Coro.balances_bind readStack_balances fun _ ↦
      Coro.balances_bind Coro.balances_get fun s' ↦ ?_
    split
    · exact Coro.balances_pure _
    · exact Coro.balances_pure _

theorem contextVlans_balances : (rd.contextVlans fuel).Balances rowLedger := by
  refine Coro.balances_bind (walkDefault_balances _ _ (by decide)) fun entities ↦
    Coro.balances_bind Coro.balances_get fun s ↦ ?_
  split
  · exact Coro.balances_pure _
  · refine Coro.balances_bind (walkDefault_balances _ _ (by decide)) fun states ↦
      Coro.balances_bind Coro.balances_get fun s' ↦ ?_
    split
    · exact Coro.balances_pure _
    · exact Coro.balances_pure _

theorem perVlan_balances (rows : List Row) : (rd.perVlan fuel rows).Balances rowLedger := by
  refine Coro.balances_bind contextVlans_balances fun vlans ↦ ?_
  dsimp only
  split
  · exact Coro.balances_pure _
  · refine Coro.balances_bind Coro.balances_get fun s ↦ ?_
    split
    · exact Coro.balances_pure _
    · refine Coro.balances_bind (Coro.balances_modify fun _ ↦ rfl) fun _ ↦ ?_
      split
      · exact Coro.balances_bind (Coro.balances_modify fun _ ↦ rfl) fun _ ↦ Coro.balances_pure _
      · exact Coro.balances_pure _

/-- The bridge table is counted by its walk. -/
theorem readBridge_balances (base : Dict Oid String) :
    (rd.readBridge fuel base).Balances rowLedger := by
  refine Coro.balances_bind (walkDefault_balances _ _ (by decide)) fun fdb ↦ ?_
  have hrest : (do
      let rows ← rd.learned fuel (parseFdbTable false fdb.rows) base
      if (← Coro.get).stopped || rd.opts.contexts = .off then return .rows rows
      rd.perVlan fuel rows : Reader Plan).Balances rowLedger := by
    refine Coro.balances_bind (learned_balances _ base) fun rows ↦
      Coro.balances_bind Coro.balances_get fun s ↦ ?_
    split
    · exact Coro.balances_pure _
    · exact perVlan_balances rows
  split
  · exact Coro.balances_bind (Coro.balances_modify fun _ ↦ rfl) fun _ ↦ hrest
  · exact hrest

theorem readQbridge_balances (base : Dict Oid String) (vlanFdb : Walked String) :
    (rd.readQbridge fuel base vlanFdb).Balances rowLedger := by
  refine Coro.balances_bind (walkDefault_balances _ _ (by decide)) fun fdb ↦ ?_
  split
  · refine Coro.balances_bind (Coro.balances_modify fun _ ↦ rfl) fun _ ↦
      Coro.balances_bind (qbridgeVlans_balances _ _ _) fun entries ↦
        Coro.balances_bind (learned_balances entries base) fun rows ↦ Coro.balances_pure _
  · refine Coro.balances_bind Coro.balances_get fun s ↦ ?_
    split
    · exact Coro.balances_pure _
    · exact readBridge_balances base

theorem read_balances : (rd.read fuel).Balances rowLedger := by
  refine Coro.balances_bind (walkDefault_balances _ _ (by decide)) fun base ↦
    Coro.balances_bind Coro.balances_get fun s ↦ ?_
  split
  · exact Coro.balances_pure _
  · refine Coro.balances_bind (Coro.balances_modify fun _ ↦ rfl) fun _ ↦
      Coro.balances_bind (walkDefault_balances _ _ (by decide)) fun vlanFdb ↦
        Coro.balances_bind Coro.balances_get fun s' ↦ ?_
    split
    · exact Coro.balances_pure _
    · exact readQbridge_balances _ vlanFdb

theorem readContext_balances (vid : ℤ) : (rd.readContext fuel vid).Balances rowLedger := by
  refine Coro.balances_bind (walk_balances _ _ (by decide)) fun base ↦ ?_
  dsimp only
  split
  · exact Coro.balances_pure _
  · exact Coro.balances_bind (walk_balances _ _ (by decide)) fun fdb ↦
      Coro.balances_bind (learned_balances _ _) fun rows ↦ Coro.balances_pure _

theorem one_balances (vid : ℤ) : (rd.one fuel vid).Balances rowLedger := by
  refine Coro.balances_bind Coro.balances_get fun s ↦ ?_
  split
  · exact Coro.balances_modify fun _ ↦ rfl
  · refine Coro.balances_bind (Coro.balances_poll _) fun late ↦ ?_
    split
    · exact Coro.balances_modify fun _ ↦ rfl
    · exact Coro.balances_bind (readContext_balances vid) fun out ↦ Coro.balances_modify fun _ ↦
        congrArg WalkBudget.rowsLeft budget_settle

/-! ### The moments of a read -/

/-- A read comes to a moment: in the default context, or in the contexts of VLANs. -/
inductive ComesTo (rd : MacRead) (sur : Surroundings) (fuel : ℕ) (now : ℚ) :
    Pool (net Outcome) ReadState → Prop
  /-- In a run of `_read`, as a pool of one task. -/
  | default {pool : Pool (net Outcome) ReadState}
      (h : Pool.Reaches sur.env 1 ⟨[rd.read fuel >>= fun _ ↦ pure ()], [], rd.start now, []⟩ pool) :
      ComesTo rd sur fuel now pool
  /-- In a run of the contexts that `_read` has planned. -/
  | contexts {rows : List Row} {advertised : Bool} {vlans : List ℤ} {s : ReadState}
      {log : Log (net Outcome)} {pool : Pool (net Outcome) ReadState}
      (hread : (rd.read fuel).run sur.env (rd.start now) [] =
        some (.contexts rows advertised vlans, s, log))
      (h : rd.ContextsReach sur fuel vlans s log pool) :
      ComesTo rd sur fuel now pool

variable {sur : Surroundings} {now : ℚ}

/-- Wherever the read in the default context is, its account is right. -/
theorem balances_of_default {pool : Pool (net Outcome) ReadState}
    (h : Pool.Reaches sur.env 1 ⟨[rd.read fuel >>= fun _ ↦ pure ()], [], rd.start now, []⟩ pool) :
    pool.Balances rowLedger macRowCap := by
  refine Pool.balances_of_reaches ⟨fun t ht ↦ ?_, fun p hp ↦ absurd hp List.not_mem_nil, rfl⟩ h
  obtain rfl := List.mem_singleton.1 ht
  exact Coro.balances_bind read_balances fun _ ↦ Coro.balances_pure ()

/-- What is left and what the marks account for is the cap, when the default context is read: its
end is one of its moments. -/
theorem rows_left_of_read {plan : Plan} {s : ReadState} {log : Log (net Outcome)}
    (hread : (rd.read fuel).run sur.env (rd.start now) [] = some (plan, s, log)) :
    s.budget.rowsLeft + rowLedger.settledIn log = macRowCap :=
  (balances_of_default (Coro.reaches_of_run hread)).total

/-- At every moment of a read what is left of the allowance is the cap less the rows admitted. -/
theorem ComesTo.balances {pool : Pool (net Outcome) ReadState} (h : rd.ComesTo sur fuel now pool) :
    pool.Balances rowLedger macRowCap := by
  cases h with
  | default h => exact balances_of_default h
  | @contexts rows advertised vlans s log pool hread h =>
    have hbegin : Pool.Balances rowLedger macRowCap ⟨vlans.map (rd.one fuel), [], s, log⟩ := by
      refine ⟨fun t ht ↦ ?_, fun p hp ↦ absurd hp List.not_mem_nil, rows_left_of_read hread⟩
      obtain ⟨vid, -, rfl⟩ := List.mem_map.1 ht
      exact one_balances vid
    exact Pool.balances_of_reaches hbegin h

/-- So at every moment of a read, what is left of the allowance is the cap less the rows
admitted. -/
theorem ComesTo.rows_left_eq {pool : Pool (net Outcome) ReadState}
    (h : rd.ComesTo sur fuel now pool) :
    rowsAdmitted pool ≤ macRowCap ∧
      (pool.st.budget.rowsLeft : ℤ) = macRowCap - rowsAdmitted pool := by
  have htotal : pool.st.budget.rowsLeft + rowLedger.settledIn pool.log +
      inHandOf rowLedger pool.st pool.parked = macRowCap := h.balances.total
  rw [rowsAdmitted]
  omega

end MacRead

end Snmp
