import DanbyteOutpost.Snmp.WalkSpec

/-!
# A walk against the table it reads

The rows of a walk are a part of the agent's table whatever went wrong, and the whole of it when the
walk says so; a walk that nothing goes wrong with says so.

`walkColumns_reads_table` is `walkColumns_wp` read for a walk alone, with an environment instead
of rules: it ends, its rows are a part of the table, `complete` means all of it, and without
faults and with room for the rows it is `complete`. `walkColumns_reads_table_retried` is a walk
whose first request is lost.
-/

namespace Snmp

open Coop

variable {M κ σ : Type} [DecidableEq κ]

/-- The indexes of the rows an agent has in some columns. -/
def Mib.indexes (m : Mib) (columns : List Oid) : List Oid :=
  (columns.flatMap fun base ↦ m.entries.filterMap fun e ↦ indexIn base e.1).dedup

/-- An index has a row if a column has an object at it. -/
theorem Mib.mem_indexes {m : Mib} {columns : List Oid} {base index : Oid} {text : String}
    (hbase : base ∈ columns) (hcell : m.cell base index = some text) :
    index ∈ m.indexes columns := by
  obtain ⟨hne, hval⟩ := Mib.cell_eq_some.1 hcell
  rw [indexes, List.mem_dedup, List.mem_flatMap]
  refine ⟨base, hbase, List.mem_filterMap.2 ⟨_, Mib.mem_iff.2 hval, ?_⟩⟩
  exact indexIn_eq_some.2 ⟨rfl, hne⟩

variable {call : WalkCall κ σ} {agent : Agent} {m : Mib}

/-- The row cap leaves room for every row of the agent. -/
def Roomy (m : Mib) (call : WalkCall κ σ) (s : σ) : Prop :=
  ∀ ref ∈ call.cap, (m.indexes call.bases).length ≤ (ref.get s).rowsLeft

theorem PartOf.keys_subset {rows : Rows κ} (h : PartOf m call rows) :
    ∀ index ∈ rows.keys, index ∈ m.indexes call.bases := by
  intro index hindex
  obtain ⟨row, hrow⟩ := Dict.mem_keys_iff.1 hindex
  obtain ⟨key, text, hget⟩ := h.row hrow
  obtain ⟨hkey, hcell⟩ := h.cell (cellOf_eq_some.2 ⟨row, hrow, hget⟩)
  exact Mib.mem_indexes (WalkCall.base_mem hkey) hcell

/-- A cap with room for every row is never spent. -/
theorem not_spent {s₀ s : σ} {rows : Rows κ} (hroomy : Roomy m call s₀) (hpart : PartOf m call rows)
    (hcharged : Charged call s₀ s rows) : ¬ Spent m call s rows := by
  rintro ⟨ref, href, hleft, key, hkey, index, text, hcell, hnew⟩
  have hcount := hcharged.count ref href
  have hroom := hroomy ref href
  have hmissing : index ∉ rows.keys := Dict.get?_eq_none_iff.1 hnew
  have hmore : (index :: rows.keys).length ≤ (m.indexes call.bases).length := by
    refine List.Subperm.length_le (List.subperm_of_subset ?_ fun index' hindex' ↦ ?_)
    · exact List.nodup_cons.2 ⟨hmissing, rows.nodup⟩
    · rcases List.mem_cons.1 hindex' with rfl | hindex'
      · exact Mib.mem_indexes (WalkCall.base_mem hkey) hcell
      · exact hpart.keys_subset index' hindex'
  have hlen : rows.keys.length = rows.items.length := List.length_map ..
  rw [List.length_cons, hlen] at hmore
  omega

/-! ### Environments of one walk -/

/-- Every reply to a walk is the agent's or a fault. -/
def AnswersOrFails (env : Env (net M)) (agent : Agent) (call : WalkCall κ σ) : Prop :=
  ∀ log (q : Query), q.access = call.access →
    Conforms agent call.bases q (env.reply log q) ∨ Faulty agent call.bases q (env.reply log q)

/-- Nothing goes wrong with a walk but timeouts, of which no more than `retries` in a row. -/
structure FaultFree (env : Env (net M)) (agent : Agent) (call : WalkCall κ σ) (s : σ) : Prop where
  /-- No look at the clock comes too late. -/
  onTime : ∀ log p, env.reading log p = false
  /-- A request is answered before its retries are spent. -/
  answers : ∀ log (q : Query), q.access = call.access →
    Conforms agent call.bases q (env.reply log q) ∨
      Reply.saysTimeout (env.reply log q) = true ∧ timeouts log < call.retries.toNat
  /-- There is room for the rows. -/
  roomy : Roomy (agent call.access) call s

/-- The rules of a walk that runs alone, for sure to its end. -/
def aloneWith (env : Env (net M)) : Rules (net M) σ where
  answer := fun log q r ↦ r = env.reply log q
  reading := fun log p yes ↦ yes = env.reading log p
  inv := fun _ ↦ True
  alone := True
  mayStop := False

theorem obeys_aloneWith (env : Env (net M)) : env.Obeys (aloneWith env : Rules (net M) σ) :=
  ⟨fun _ _ ↦ rfl, fun _ _ ↦ rfl⟩

theorem walkKeeps_aloneWith (env : Env (net M)) (call : WalkCall κ σ) :
    WalkKeeps (aloneWith env) call := by
  constructor <;> intros <;> trivial

theorem FaultFree.not_mishap {env : Env (net M)} {s : σ} (h : FaultFree env agent call s) :
    ¬ Mishap (aloneWith env : Rules (net M) σ) agent call := by
  rintro (⟨ref, -, w, -, hlate⟩ | ⟨log, q, r, hr, haccess, hfault, hretry⟩)
  · exact Bool.false_ne_true ((h.onTime w.log _).symm.trans hlate.symm)
  · subst hr
    rcases h.answers log q haccess with hconforms | ⟨hsaid, hleft⟩
    · exact hfault hconforms
    · have := hretry hsaid
      omega

/-- A walk of an agent's columns ends, whatever goes wrong; what it read is in the agent's table,
and is all of it when the walk says so; and the walk says so when nothing went wrong but timeouts
for which there were retries left.

The replies have to be the agent's or faults (`AnswersOrFails`), since one that is neither may put
anything into a row. Of the clock and of the state the walk shares nothing is asked. -/
theorem walkColumns_reads_table (call : WalkCall κ σ) (agent : Agent) (s : σ) :
    ∃ enough, ∀ fuel ≥ enough, ∀ env : Env (net M), AnswersOrFails env agent call →
      ∃ out s' log, (walkColumns call fuel).run env s [] = some (out, s', log) ∧
        (∀ index key text, cellOf out.rows index key = some text →
          key ∈ call.columns.keys ∧
            (agent call.access).cell (call.base key) index = some text) ∧
        (out.complete = true → ∀ key ∈ call.columns.keys, ∀ index,
          cellOf out.rows index key = (agent call.access).cell (call.base key) index) ∧
        (FaultFree env agent call s → out.complete = true) := by
  refine ⟨call.start.ahead (agent call.access) + 1, fun fuel hfuel env henv ↦ ?_⟩
  have hhonest : True → Honest (aloneWith env : Rules (net M) σ) agent call := by
    rintro - log q _ rfl haccess
    exact henv log q haccess
  have hwp : (walkColumns call fuel).wp (aloneWith env : Rules (net M) σ)
      (WalkEnd (aloneWith env) agent call True s) ⟨s, []⟩ :=
    walkColumns_wp (w := ⟨s, []⟩) (walkKeeps_aloneWith env call) hhonest trivial
      (.inr ⟨trivial, hfuel⟩)
  obtain ⟨out, s', log, hrun, hend⟩ :=
    Coro.run_total_of_wp (obeys_aloneWith env) not_false hwp
  have hpart := hend.part trivial
  refine ⟨out, s', log, hrun, fun index key text ↦ hpart.cell,
    fun hcomplete key hkey index ↦ ?_, fun hfree ↦ ?_⟩
  · refine Option.ext fun text ↦ ⟨fun hcell ↦ (hpart.cell hcell).2, fun hcell ↦ ?_⟩
    exact hend.whole trivial hcomplete hkey hcell
  · by_contra hno
    rcases hend.fault trivial trivial (Bool.eq_false_of_not_eq_true hno) with
      hmishap | ⟨s₁, hcharged, hspent⟩
    · exact hfree.not_mishap hmishap
    · exact not_spent hfree.roomy hpart hcharged hspent

/-- A port column of two rows and a status column of one, a row a response, and every request timed
out once before it was answered. -/
theorem walkColumns_reads_table_retried :
    let mib : Mib := ⟨[([1, 2, 7], "11"), ([1, 2, 9], "12"), ([1, 3, 7], "3")], by decide⟩
    let call : WalkCall Bool Unit :=
      { access := ⟨.usm, ""⟩, columns := Dict.ofList [(true, [1, 2]), (false, [1, 3])]
        maxRep := 50, retries := 1, budget := none, capRows := false }
    let env : Env (net Unit) :=
      { reading := fun _ _ ↦ false
        reply := fun log q ↦
          if timeouts log = 0 then .response (some ⟨"RequestTimedOut", ""⟩) 0 "" 0 []
          else Agent.serve (fun _ ↦ mib) q
        pick := fun _ ↦ 0 }
    ∃ fuel out log, (walkColumns call fuel).run env () [] = some (out, (), log) ∧
      out.complete = true ∧ cellOf out.rows [9] true = some "12" ∧
        cellOf out.rows [9] false = none := by
  intro mib call env
  have hreply : ∀ log (q : Query), Conforms (fun _ ↦ mib) call.bases q (env.reply log q) ∨
      Reply.saysTimeout (env.reply log q) = true ∧ timeouts log < call.retries.toNat ∧
        Faulty (fun _ ↦ mib) call.bases q (env.reply log q) := by
    intro log q
    show Conforms _ _ q (if timeouts log = 0 then _ else _) ∨ _
    split
    case isTrue hfirst =>
      refine .inr ?_
      show Reply.saysTimeout (if timeouts log = 0 then _ else _) = true ∧ timeouts log < 1 ∧
        Faulty _ _ q (if timeouts log = 0 then _ else _)
      rw [if_pos hfirst]
      exact ⟨rfl, by omega, .indication ..⟩
    case isFalse => exact .inl (Agent.serve_conforms ..)
  obtain ⟨enough, hwalk⟩ := walkColumns_reads_table (M := Unit) call (fun _ ↦ mib) ()
  obtain ⟨out, s', log, hrun, -, hwhole, hfree⟩ := hwalk enough le_rfl env
    fun log q _ ↦ (hreply log q).imp_right fun h ↦ h.2.2
  have hcomplete : out.complete = true := hfree
    { onTime := fun _ _ ↦ rfl
      answers := fun log q _ ↦ (hreply log q).imp_right fun h ↦ ⟨h.1, h.2.1⟩
      roomy := fun ref href ↦ nomatch href }
  refine ⟨enough, out, log, hrun, hcomplete, ?_, ?_⟩
  · exact (hwhole hcomplete true (by decide) [9]).trans (by decide)
  · exact (hwhole hcomplete false (by decide) [9]).trans (by decide)

end Snmp
