import DanbyteOutpost.Snmp.WalkSpec
import Mathlib.Algebra.Order.BigOperators.Group.Finset

/-!
# A walk ends

Whatever an agent answers, a round of `_walk_columns` (`walkRound`) that goes on has fewer open
columns, or asks for fewer rows, or has the last OID of an open column raised (`Walker.Advances`).
Where the OIDs an agent ever returns under the columns are of a finite set, the rounds are counted
(`Walker.left`), so that enough fuel ends the walk (`walkColumns_ends`).

## The measure

`Walker.left` counts what rounds there can still be: the columns that are open, the rows that are
asked for, and for each column the OIDs of the set that lie beyond its cursor. The set is whatever
the agent returns under the columns, not what it has, so that an agent that makes up OIDs is
covered as long as there are finitely many; without that, an agent could raise a cursor for ever.

No invariant of the environment is needed, so the same holds of a walk among other tasks.
-/

namespace Snmp

open Coop

variable {M κ σ : Type} [DecidableEq κ]

/-! ### What a round changes -/

/-- The variables after a response: an open column's cursor stays, or is raised to an OID of `S`. -/
structure Walker.Rises (S : Finset Oid) (w w' : Walker κ) : Prop where
  /-- The columns are closed behind the response, not within it. -/
  active : w'.active = w.active
  /-- No fewer rows are asked for. -/
  maxRep : w'.maxRep = w.maxRep
  /-- A cursor never goes back. -/
  cursor : ∀ key, w'.cursor key = w.cursor key ∨
    w.cursor key < w'.cursor key ∧ w'.cursor key ∈ S

theorem Walker.Rises.refl (S : Finset Oid) (w : Walker κ) : w.Rises S w :=
  ⟨rfl, rfl, fun _ ↦ .inl rfl⟩

/-- Two rounds raise the cursors one after the other. -/
theorem Walker.Rises.trans {S : Finset Oid} {w w' w'' : Walker κ} (h : w.Rises S w')
    (h' : w'.Rises S w'') : w.Rises S w'' where
  active := h'.active.trans h.active
  maxRep := h'.maxRep.trans h.maxRep
  cursor := by
    intro key
    rcases h.cursor key with heq | ⟨hlt, hmem⟩
    · rw [← heq]
      exact h'.cursor key
    · rcases h'.cursor key with heq' | ⟨hlt', hmem'⟩
      · rw [heq']
        exact .inr ⟨hlt, hmem⟩
      · exact .inr ⟨hlt.trans hlt', hmem'⟩

theorem Walker.Rises.le {S : Finset Oid} {w w' : Walker κ} (h : w.Rises S w') (key : κ) :
    w.cursor key ≤ w'.cursor key := by
  rcases h.cursor key with heq | ⟨hlt, -⟩
  · exact heq.ge
  · exact hlt.le

/-- What the loop goes on with: no column is opened or put back and no more rows are asked for, and
there is a column less, or fewer rows are asked for, or an open column's cursor is raised. -/
structure Walker.Advances (S : Finset Oid) (w w' : Walker κ) : Prop where
  /-- A column that was closed stays closed. -/
  active : w'.active.Sublist w.active
  /-- No more rows are asked for than before. -/
  maxRep : w'.maxRep ≤ w.maxRep
  /-- A cursor never goes back, and stays among the OIDs of the responses. -/
  cursor : ∀ key, w'.cursor key = w.cursor key ∨
    w.cursor key < w'.cursor key ∧ w'.cursor key ∈ S
  /-- Something has become less. -/
  progress : w'.active.length < w.active.length ∨
    1 < w.maxRep ∧ w'.maxRep = max 1 (w.maxRep / 2) ∨
      ∃ key ∈ w'.active, w.cursor key < w'.cursor key

variable {call : WalkCall κ σ} {S : Finset Oid}

/-- The names that count: those under a column of the call are in `S`. -/
def NamesIn (call : WalkCall κ σ) (S : Finset Oid) (b : Binding) : Prop :=
  ∀ key ∈ call.columns.keys, indexIn (call.base key) b.name ≠ none → b.name ∈ S

/-- A cell moves no cursor. -/
theorem Taken.cell_cursor (call : WalkCall κ σ) (index : Oid) (key : κ) (text : String)
    (t : Taken κ σ) :
    (t.cell call index key text).walker.cursor = t.walker.cursor ∧
      (t.cell call index key text).walker.active = t.walker.active ∧
      (t.cell call index key text).walker.maxRep = t.walker.maxRep ∧
      (t.cell call index key text).done = t.done := by
  cases t.cell_move call index key text with
  | old _ _ heq => exact heq ▸ ⟨rfl, rfl, rfl, rfl⟩
  | new _ _ _ heq => exact heq ▸ ⟨rfl, rfl, rfl, rfl⟩
  | cut _ _ _ _ heq => exact heq ▸ ⟨rfl, rfl, rfl, rfl⟩

/-- A binding of a column: the column is done with, or its cursor is raised. -/
theorem Taken.binding_rises {key : κ} (hkey : key ∈ call.columns.keys) {b : Binding}
    (hb : NamesIn call S b) (t : Taken κ σ) :
    t.walker.Rises S (t.binding call key b).walker ∧ t.done ⊆ (t.binding call key b).done ∧
      (key ∈ (t.binding call key b).done ∨
        t.walker.cursor key < (t.binding call key b).walker.cursor key) := by
  rw [binding]
  split
  -- a column that is done is passed over
  case isTrue hdone => exact ⟨.refl S _, List.Subset.refl _, .inl hdone⟩
  case isFalse hopen =>
  have hends : ∀ w : Walker κ, t.walker.Rises S w → t.walker.Rises S w ∧
      t.done ⊆ key :: t.done ∧ (key ∈ key :: t.done ∨ t.walker.cursor key < w.cursor key) :=
    fun w hw ↦ ⟨hw, List.subset_cons_self _ _, .inl List.mem_cons_self⟩
  split
  -- the binding is of another column, or no object, so the column has ended
  case h_2 => exact hends _ (.refl S _)
  case h_1 _ _ text index _ hindex =>
  split
  -- an OID that is no greater than the last one ends the column as well
  case isTrue => exact hends _ ⟨rfl, rfl, fun _ ↦ .inl rfl⟩
  case isFalse hnew =>
    obtain ⟨hcursor, hactive, hmaxRep, hdone⟩ :=
      { t with walker := t.walker.moveTo key b.name }.cell_cursor call index key text
    have hlt : t.walker.cursor key < b.name := not_le.1 hnew
    have hmem : b.name ∈ S := hb key hkey (by rw [hindex]; exact Option.some_ne_none index)
    -- an OID that is greater becomes the cursor, and no other cursor moves
    refine ⟨⟨hactive, hmaxRep, fun key' ↦ ?_⟩, ?_, .inr ?_⟩
    · rw [hcursor]
      show Function.update t.walker.cursor key b.name key' = _ ∨ _
      by_cases heq : key' = key
      · subst heq
        refine .inr ?_
        show t.walker.cursor key' < Function.update t.walker.cursor key' b.name key' ∧
          Function.update t.walker.cursor key' b.name key' ∈ S
        rw [Function.update_self]
        exact ⟨hlt, hmem⟩
      · exact .inl (Function.update_of_ne heq ..)
    · rw [hdone]
      exact List.Subset.refl _
    · rw [hcursor]
      show t.walker.cursor key < Function.update t.walker.cursor key b.name key
      rw [Function.update_self]
      exact hlt

/-- A response that is taken: cursors rise, and the column of its first binding is done with, or its
cursor is raised. -/
theorem Taken.bindings_rises {active : List κ} (hactive : ∀ key ∈ active, key ∈ call.columns.keys)
    {bs : List Binding} (hbs : ∀ b ∈ bs, NamesIn call S b) {i : ℕ} {t : Taken κ σ} :
    t.walker.Rises S (t.bindings call active i bs).walker ∧
      t.done ⊆ (t.bindings call active i bs).done ∧
      ∀ key, active[i % active.length]? = some key → bs ≠ [] →
        key ∈ (t.bindings call active i bs).done ∨
          t.walker.cursor key < (t.bindings call active i bs).walker.cursor key := by
  induction bs generalizing i t with
  | nil => exact ⟨.refl S _, List.Subset.refl _, fun key _ hne ↦ absurd rfl hne⟩
  | cons b bs ih =>
    rw [bindings]
    split
    case h_1 hnone =>
      refine ⟨.refl S _, List.Subset.refl _, fun key hkey ↦ ?_⟩
      cases hnone.symm.trans hkey
    case h_2 key hkey =>
      obtain ⟨hrises, hdone, hmoved⟩ :=
        binding_rises (hactive key (List.mem_of_getElem? hkey)) (hbs b List.mem_cons_self) t
      dsimp only
      split
      case isTrue =>
        refine ⟨hrises, hdone, fun key' hkey' _ ↦ ?_⟩
        obtain rfl := Option.some.inj (hkey.symm.trans hkey')
        exact hmoved
      case isFalse =>
        obtain ⟨hrises', hdone', -⟩ :=
          ih (fun b' hb' ↦ hbs b' (List.mem_cons_of_mem b hb')) (i := i + 1)
            (t := t.binding call key b)
        refine ⟨hrises.trans hrises', List.Subset.trans hdone hdone', fun key' hkey' _ ↦ ?_⟩
        obtain rfl := Option.some.inj (hkey.symm.trans hkey')
        rcases hmoved with hin | hlt
        · exact .inl (hdone' hin)
        · exact .inr (hlt.trans_le (hrises'.le key))

/-- A round that took a response advances. -/
theorem Walker.advances_respond {w : Walker κ} (hopen : w.active ≠ [])
    (hactive : ∀ key ∈ w.active, key ∈ call.columns.keys) {binds : List Binding}
    (hne : binds ≠ []) (hbinds : ∀ b ∈ binds, NamesIn call S b) (s : σ) :
    w.Advances S ((w.respond call binds s).walker.close (w.respond call binds s).done) := by
  have htaken : w.Rises S (w.respond call binds s).walker ∧ [] ⊆ (w.respond call binds s).done ∧
      ∀ key, w.active[0 % w.active.length]? = some key → binds ≠ [] →
        key ∈ (w.respond call binds s).done ∨
          w.cursor key < (w.respond call binds s).walker.cursor key :=
    Taken.bindings_rises hactive hbinds (i := 0) (t := ⟨w, [], s, false⟩)
  obtain ⟨hrises, -, hmoved⟩ := htaken
  obtain ⟨first, rest, hfirst⟩ := List.exists_cons_of_ne_nil hopen
  have hget : w.active[0 % w.active.length]? = some first := by rw [hfirst]; rfl
  have hmem : first ∈ (w.respond call binds s).walker.active := by
    rw [hrises.active, hfirst]
    exact List.mem_cons_self
  refine ⟨?_, hrises.maxRep.le, hrises.cursor, ?_⟩
  · rw [← hrises.active]
    exact List.filter_sublist
  · by_cases hdone : first ∈ (w.respond call binds s).done
    · refine .inl ?_
      rw [← hrises.active]
      exact List.length_filter_lt_length_iff_exists.2 ⟨first, hmem, by simpa using hdone⟩
    · have hlt := (hmoved first hget hne).resolve_left hdone
      exact .inr (.inr ⟨first, List.mem_filter.2 ⟨hmem, by simpa using hdone⟩, hlt⟩)

/-- A column that is given up is an advance. -/
theorem Walker.advances_pop {w : Walker κ} {index : ℤ} (hnames : w.names index) :
    w.Advances S (w.pop index) where
  active := List.eraseIdx_sublist ..
  maxRep := le_rfl
  cursor _ := .inl rfl
  progress := by
    obtain ⟨hlow, hhigh⟩ := hnames
    refine .inl ?_
    show (w.active.eraseIdx (index - 1).toNat).length < w.active.length
    rw [List.length_eraseIdx]
    split <;> omega

theorem Walker.advances_halve {w : Walker κ} (hmany : 1 < w.maxRep) : w.Advances S w.halve where
  active := List.Sublist.refl _
  maxRep := by
    show max 1 (w.maxRep / 2) ≤ w.maxRep
    omega
  cursor _ := .inl rfl
  progress := .inr (.inl ⟨hmany, rfl⟩)

/-! ### Any agent, any interleaving -/

/-- The bindings of a response, if there is one. -/
def Reply.binds : Reply → List Binding
  | response _ _ _ _ binds => binds
  | timedOut | raised _ => []

/-- Anything may be answered whose names are in `S`, and other tasks may do anything to the state
while the walk waits. No task runs out of fuel. -/
def anyAgent (call : WalkCall κ σ) (S : Finset Oid) : Rules (net M) σ where
  answer _ _ r := ∀ b ∈ Reply.binds r, NamesIn call S b
  reading _ _ _ := True
  inv _ := True
  alone := False
  mayStop := False

/-- The bindings of an attempt that was answered. -/
def Attempt.binds : Attempt → List Binding
  | answered _ _ _ _ binds => binds
  | cut | failed .. => []

/-- Whatever an agent answers has names, of which a walk believes those it can place. -/
theorem attempt_names {q : Query} {w : World (net M) σ} :
    (attempt call q).wp (anyAgent call S) (fun a _ ↦ ∀ b ∈ a.binds, NamesIn call S b) w := by
  have hoverdue : (outOfTime call : Coro (net M) σ Bool).wp (anyAgent call S)
      (fun _ _ ↦ True) w := by
    rw [outOfTime]
    split
    · trivial
    · exact fun _ _ ↦ trivial
  rw [attempt_eq, Coro.wp_bind]
  refine Coro.wp_mono hoverdue fun late w' _ _ ↦ ?_
  cases late with
  | true => exact fun b hb ↦ absurd hb List.not_mem_nil
  | false =>
    refine Coro.wp_bind.2 ⟨trivial, fun w'' _ r hr ↦ ?_⟩
    show ∀ b ∈ (call.outcome r).binds, NamesIn call S b
    cases r with
    | response => exact hr
    | raised => exact hr
    | timedOut =>
      rw [WalkCall.outcome]
      split <;> exact hr

theorem request_names {q : Query} {left : ℕ} {w : World (net M) σ} :
    (request call q left).wp (anyAgent call S) (fun a _ ↦ ∀ b ∈ a.binds, NamesIn call S b) w := by
  induction left generalizing w with
  | zero => exact attempt_names
  | succ left ih =>
    rw [request, Coro.wp_bind]
    refine Coro.wp_mono attempt_names fun a w' _ ha ↦ ?_
    split
    · exact ih
    · exact ha

/-- What a round is sure of: it ends, and if the loop goes on the variables advance. -/
theorem walkRound_wp {walker : Walker κ} (hactive : ∀ key ∈ walker.active, key ∈ call.columns.keys)
    {w : World (net M) σ} : (walkRound call walker).wp (anyAgent call S)
      (fun out _ ↦ ∀ walker', out = .inr walker' → walker.Advances S walker') w := by
  -- a round that ends the walk has nothing to show
  have hcut : ∀ (wk : Walker κ) reason (w' : World (net M) σ),
      ((.inl <$> wk.cut call reason : Coro (net M) σ (Walked κ ⊕ Walker κ))).wp (anyAgent call S)
        (fun out _ ↦ ∀ walker', out = .inr walker' → walker.Advances S walker') w' := by
    intro wk reason w'
    rw [Coro.wp_map, Walker.cut]
    split
    · exact fun walker' heq ↦ (Sum.inl_ne_inr heq).elim
    · exact fun walker' heq ↦ (Sum.inl_ne_inr heq).elim
  have hstop : ∀ (wk : Walked κ) (w' : World (net M) σ),
      (pure (.inl wk) : Coro (net M) σ (Walked κ ⊕ Walker κ)).wp (anyAgent call S)
        (fun out _ ↦ ∀ walker', out = .inr walker' → walker.Advances S walker') w' :=
    fun wk w' walker' heq ↦ (Sum.inl_ne_inr heq).elim
  rw [walkRound]
  split
  case isTrue => exact hstop _ w
  case isFalse hopen =>
  rw [Coro.wp_bind]
  refine Coro.wp_mono request_names fun a w' _ ha ↦ ?_
  rcases a with - | ⟨error, timeout⟩ | ⟨- | e, status, statusText, index, binds⟩
  · exact hcut _ _ _
  · exact hstop _ _
  -- of the responses, three make the loop go on: one with bindings, one with the name of a column
  -- that has ended, and one that is too big
  · dsimp only
    split
    · split
      · exact hstop _ _
      case isFalse hne =>
        rw [Coro.wp_bind, Coro.wp_get, Coro.wp_bind, Coro.wp_modify]
        split
        · exact hcut _ _ _
        · intro walker' heq
          obtain rfl := Sum.inr.inj heq
          exact Walker.advances_respond hopen hactive hne ha w'.st
    · split
      case isTrue hpop =>
        intro walker' heq
        obtain rfl := Sum.inr.inj heq
        exact Walker.advances_pop hpop.2
      case isFalse =>
        split
        case isTrue hmany =>
          intro walker' heq
          obtain rfl := Sum.inr.inj heq
          exact Walker.advances_halve hmany.2
        case isFalse => exact hstop _ _
  · exact hstop _ _

/-! ### The rounds are counted -/

/-- The OIDs of `S` past a column's cursor. -/
def Walker.beyond (S : Finset Oid) (w : Walker κ) (key : κ) : Finset Oid :=
  S.filter (w.cursor key < ·)

/-- How many rounds there can be: the open columns, the rows asked for, and the OIDs still ahead. -/
def Walker.left (call : WalkCall κ σ) (S : Finset Oid) (w : Walker κ) : ℕ :=
  w.active.length + w.maxRep.toNat + ∑ key ∈ call.columns.keys.toFinset, (w.beyond S key).card

/-- A bound on the rounds of a walk: for each column, the objects behind it, and the halvings. -/
theorem Walker.left_start_le :
    call.start.left call S ≤ call.columns.keys.length * (S.card + 1) + call.maxRep.toNat := by
  have hsum : ∑ key ∈ call.columns.keys.toFinset, (call.start.beyond S key).card ≤
      call.columns.keys.toFinset.card * S.card := by
    refine Finset.sum_le_card_nsmul _ _ S.card fun key _ ↦ ?_
    exact Finset.card_filter_le _ _
  have hkeys : call.columns.keys.toFinset.card * S.card ≤ call.columns.keys.length * S.card :=
    Nat.mul_le_mul_right _ (List.toFinset_card_le _)
  have hstart : call.start.left call S = call.columns.keys.length + call.maxRep.toNat +
      ∑ key ∈ call.columns.keys.toFinset, (call.start.beyond S key).card := rfl
  rw [hstart, Nat.mul_succ]
  omega

variable {walker walker' : Walker κ}

theorem Walker.Advances.beyond_subset (h : walker.Advances S walker') (key : κ) :
    walker'.beyond S key ⊆ walker.beyond S key := by
  intro oid hoid
  obtain ⟨hmem, hlt⟩ := Finset.mem_filter.1 hoid
  refine Finset.mem_filter.2 ⟨hmem, ?_⟩
  rcases h.cursor key with heq | ⟨hraised, -⟩
  · exact heq ▸ hlt
  · exact hraised.trans hlt

theorem Walker.Advances.beyond_ssubset (h : walker.Advances S walker') {key : κ}
    (hlt : walker.cursor key < walker'.cursor key) :
    walker'.beyond S key ⊂ walker.beyond S key := by
  obtain heq | ⟨-, hmem⟩ := h.cursor key
  · exact absurd hlt (heq ▸ lt_irrefl _)
  · refine (Finset.ssubset_iff_of_subset (h.beyond_subset key)).2 ⟨walker'.cursor key, ?_, ?_⟩
    · exact Finset.mem_filter.2 ⟨hmem, hlt⟩
    · exact fun hin ↦ lt_irrefl _ (Finset.mem_filter.1 hin).2

/-- A round leaves fewer. -/
theorem Walker.Advances.left_lt (h : walker.Advances S walker')
    (hactive : ∀ key ∈ walker.active, key ∈ call.columns.keys) :
    walker'.left call S < walker.left call S := by
  have hlength : walker'.active.length ≤ walker.active.length := h.active.length_le
  have hmaxRep : walker'.maxRep.toNat ≤ walker.maxRep.toNat := Int.toNat_le_toNat h.maxRep
  have hbeyond : ∀ key ∈ call.columns.keys.toFinset,
      (walker'.beyond S key).card ≤ (walker.beyond S key).card :=
    fun key _ ↦ Finset.card_le_card (h.beyond_subset key)
  have hsum := Finset.sum_le_sum hbeyond
  rw [left, left]
  rcases h.progress with hfewer | ⟨hmany, hhalf⟩ | ⟨key, hkey, hlt⟩
  · omega
  · omega
  · have hmem : key ∈ call.columns.keys.toFinset :=
      List.mem_toFinset.2 (hactive key (h.active.subset hkey))
    have hsum' : ∑ key ∈ call.columns.keys.toFinset, (walker'.beyond S key).card <
        ∑ key ∈ call.columns.keys.toFinset, (walker.beyond S key).card :=
      Finset.sum_lt_sum hbeyond ⟨key, hmem, Finset.card_lt_card (h.beyond_ssubset hlt)⟩
    omega

/-- The run lemma: with more fuel than there are rounds left, the loop ends. -/
theorem walkLoop_ends {fuel : ℕ} (hfuel : walker.left call S < fuel)
    (hactive : ∀ key ∈ walker.active, key ∈ call.columns.keys) {w : World (net M) σ} :
    (walkLoop call fuel walker).wp (anyAgent call S) (fun _ _ ↦ True) w := by
  induction fuel generalizing walker w with
  | zero => exact absurd hfuel (Nat.not_lt_zero _)
  | succ fuel ih =>
    rw [walkLoop_succ, Coro.wp_bind]
    refine Coro.wp_mono (walkRound_wp hactive) fun out w' _ hout ↦ ?_
    cases out with
    | inl walked => exact trivial
    | inr walker' =>
      have hadv : walker.Advances S walker' := hout walker' rfl
      have hless := hadv.left_lt hactive
      exact ih (by omega) fun key hkey ↦ hactive key (hadv.active.subset hkey)

/-- The loop of `_walk_columns` is a sequence of rounds, and a round that does not return closes a
column, halves `max_rep` or raises the last OID of an open column, whatever the agent answers and
whatever other tasks do to the budget. Where the OIDs under the columns are of a finite set the walk
so ends, alone or among others.

`Walker.Advances` is made of the loop's own variables, so what other tasks do to the budget does not
enter into it. -/
theorem walkColumns_ends (call : WalkCall κ σ) (S : Finset Oid) :
    (∀ fuel (walker : Walker κ), (walkLoop call (fuel + 1) walker : Coro (net M) σ (Walked κ)) =
      walkRound call walker >>= fun
        | .inl walked => pure walked
        | .inr walker' => walkLoop call fuel walker') ∧
    (∀ walker : Walker κ, (∀ key ∈ walker.active, key ∈ call.columns.keys) →
      ∀ w : World (net M) σ, (walkRound call walker).wp (anyAgent call S)
        (fun out _ ↦ ∀ walker', out = .inr walker' → walker.Advances S walker') w) ∧
    ∀ fuel, call.columns.keys.length * (S.card + 1) + call.maxRep.toNat < fuel →
      (∀ w : World (net M) σ, (walkColumns call fuel).wp (anyAgent call S) (fun _ _ ↦ True) w) ∧
      ∀ env : Env (net M), (∀ log q, ∀ b ∈ Reply.binds (env.reply log q), NamesIn call S b) →
        ∀ s log, ∃ out, (walkColumns call fuel).run env s log = some out := by
  refine ⟨walkLoop_succ call, fun walker hactive w ↦ walkRound_wp hactive, fun fuel hfuel ↦ ?_⟩
  have hends : ∀ w : World (net M) σ,
      (walkColumns call fuel).wp (anyAgent call S) (fun _ _ ↦ True) w :=
    fun w ↦ walkLoop_ends (Walker.left_start_le.trans_lt hfuel) fun _ hkey ↦ hkey
  refine ⟨hends, fun env henv s log ↦ ?_⟩
  have hobeys : env.Obeys (anyAgent call S : Rules (net M) σ) := ⟨henv, fun _ _ ↦ trivial⟩
  obtain ⟨out, s', log', hrun, -⟩ := Coro.run_total_of_wp hobeys not_false (hends ⟨s, log⟩)
  exact ⟨_, hrun⟩

/-- An agent that answers every request for two columns with a row, an older row, and an OID of
another table. -/
theorem walkColumns_ends_looping :
    let call : WalkCall Bool Unit :=
      { access := ⟨.usm, ""⟩, columns := Dict.ofList [(true, [1, 2]), (false, [1, 3])]
        maxRep := 50, retries := 1, budget := none, capRows := false }
    let env : Env (net Unit) :=
      { reading := fun _ _ ↦ false
        reply := fun _ _ ↦ .response none 0 "" 0
          [⟨[1, 2, 7], .object "a"⟩, ⟨[1, 3, 8], .object "b"⟩, ⟨[1, 2, 5], .object "c"⟩,
            ⟨[1, 9], .object "d"⟩]
        pick := fun _ ↦ 0 }
    ∃ out, (walkColumns call 60).run env () [] = some out := by
  intro call env
  have hcases : ∀ b ∈ Reply.binds (env.reply [] ⟨call.access, [], 0⟩),
      b.name ∈ ({[1, 2, 7], [1, 3, 8], [1, 2, 5]} : Finset Oid) ∨ b.name = [1, 9] := by
    decide
  have hnames : ∀ log q, ∀ b ∈ Reply.binds (env.reply log q),
      NamesIn call {[1, 2, 7], [1, 3, 8], [1, 2, 5]} b := by
    intro log q b hb
    rcases hcases b hb with hmem | hother
    · exact fun _ _ _ ↦ hmem
    · intro key _ hindex
      rw [hother] at hindex
      cases key <;> exact absurd (by decide) hindex
  exact ((walkColumns_ends call {[1, 2, 7], [1, 3, 8], [1, 2, 5]}).2.2 60 (by decide)).2 env hnames
    () []

end Snmp
