import DanbyteOutpost.Snmp.MacOrigin

/-!
# What a report makes of things in any order

The parts of a report that come together from several tables: counts, sorted sets, the worst of the
port maps, problems said once. None of them depends on the order in which the tables come.

Sorted lists without repetitions that have the same members are equal (`sortedSet_of_mem_iff`),
the worst of several is the one of greatest rank wherever it stands (`worstPortMap_of_perm`), and
the counters only add up (`learnedRows_dropped`). A problem that several tables report is said
once (`eraseDups_append_replicate`).
-/

namespace Snmp

open PyText

/-- The same values, sorted and without repetition. -/
theorem sortedSet_of_mem_iff {values values' : List ℤ} (h : ∀ n, n ∈ values ↔ n ∈ values') :
    sortedSet values = sortedSet values' := by
  have hperm : (sortedSet values).Perm (sortedSet values') := by
    refine (List.perm_ext_iff_of_nodup (nodup_sortedSet values) (nodup_sortedSet values')).2 ?_
    intro n
    rw [mem_sortedSet, mem_sortedSet]
    exact h n
  exact hperm.eq_of_pairwise' (List.pairwise_insertionSort _ _) (List.pairwise_insertionSort _ _)

/-! ### Counts -/

instance : RightCommutative Dropped.count where
  right_comm := by
    intro dropped drop drop'
    cases drop <;> cases drop' <;> rfl

/-- What `learned_rows` counts. -/
def dropsOf (ifaces : Ifaces) (entries : List Entry) (base : Dict Oid String) : List Drop :=
  let kept := keep ifaces.own entries
  let mapping := mapBridgePorts ifaces (kept.filterMap Entry.bridgePort) base
  let unmapped := kept.filter fun entry ↦ decide (entry.row mapping.1 = none)
  entries.filterMap (Entry.drop ifaces.own) ++ unmapped.map fun _ ↦ .unmapped

/-- The counters of what is dropped are counted up entry by entry. -/
theorem learnedRows_dropped (ifaces : Ifaces) (entries : List Entry) (base : Dict Oid String)
    (dropped : Dropped) : (learnedRows ifaces entries base dropped).dropped =
      (dropsOf ifaces entries base).foldl Dropped.count dropped := by
  rw [dropsOf, List.foldl_append, learnedRows]
  split
  case isTrue hnone =>
    rw [hnone]
    rfl
  case isFalse => rfl

/-- The port map of `learned_rows` does not depend on what was counted before either. -/
theorem learnedRows_portMap (ifaces : Ifaces) (entries : List Entry) (base : Dict Oid String)
    (dropped dropped' : Dropped) : (learnedRows ifaces entries base dropped).portMap =
      (learnedRows ifaces entries base dropped').portMap := by
  rw [learnedRows, learnedRows]
  split <;> rfl

/-! ### The worst port map -/

/-- No two kinds of port map are as bad as each other. -/
theorem rank_injective : Function.Injective PortMap.rank := by
  intro how how' h
  cases how <;> cases how' <;> first | rfl | exact absurd h (by decide)

/-- The worst port map is one of them, and none is worse. -/
theorem worstPortMap_spec (first : PortMap) (rest : List PortMap) :
    worstPortMap first rest ∈ first :: rest ∧
      ∀ how ∈ first :: rest, how.rank ≤ (worstPortMap first rest).rank := by
  induction rest generalizing first with
  | nil =>
    refine ⟨List.mem_singleton_self first, fun how hhow ↦ ?_⟩
    rw [List.mem_singleton.1 hhow]
    exact le_rfl
  | cons next rest ih =>
    obtain ⟨worse, hworse⟩ : ∃ worse, (if first.rank < next.rank then next else first) = worse :=
      ⟨_, rfl⟩
    obtain ⟨hmem, hmax⟩ := ih worse
    have hrank := hmax worse List.mem_cons_self
    have hboth : (worse = first ∨ worse = next) ∧ first.rank ≤ worse.rank ∧
        next.rank ≤ worse.rank := by
      rw [← hworse]
      split
      case isTrue hlt => exact ⟨.inr rfl, hlt.le, le_rfl⟩
      case isFalse hle => exact ⟨.inl rfl, le_rfl, not_lt.1 hle⟩
    obtain ⟨hone, hfirst, hnext⟩ := hboth
    show worstPortMap (if first.rank < next.rank then next else first) rest ∈ _ ∧
      ∀ how ∈ first :: next :: rest,
        how.rank ≤ (worstPortMap (if first.rank < next.rank then next else first) rest).rank
    rw [hworse, List.forall_mem_cons, List.forall_mem_cons]
    refine ⟨?_, hfirst.trans hrank, hnext.trans hrank,
      fun how hhow ↦ hmax how (List.mem_cons_of_mem _ hhow)⟩
    rcases List.mem_cons.1 hmem with heq | hrest
    · rw [heq]
      rcases hone with rfl | rfl
      · exact List.mem_cons_self
      · exact List.mem_cons_of_mem _ List.mem_cons_self
    · exact List.mem_cons_of_mem _ (List.mem_cons_of_mem _ hrest)

theorem worstPortMap_of_perm {first first' : PortMap} {rest rest' : List PortMap}
    (h : (first :: rest).Perm (first' :: rest')) :
    worstPortMap first rest = worstPortMap first' rest' := by
  obtain ⟨hmem, hmax⟩ := worstPortMap_spec first rest
  obtain ⟨hmem', hmax'⟩ := worstPortMap_spec first' rest'
  refine rank_injective (le_antisymm (hmax' _ (h.subset hmem)) (hmax _ (h.symm.subset hmem')))

/-! ### Problems said once -/

/-- A problem said again changes nothing. -/
theorem eraseDups_append_replicate (problems : List String) (problem : String) (n : ℕ) :
    (problems ++ List.replicate (n + 1) problem).eraseDups = (problems ++ [problem]).eraseDups := by
  induction n with
  | zero => rfl
  | succ n ih =>
    have hsaid : [problem].removeAll (problems ++ List.replicate (n + 1) problem) = [] := by
      rw [List.cons_removeAll, if_neg, List.nil_removeAll]
      simp
    rw [List.replicate_succ', ← List.append_assoc, List.eraseDups_append, hsaid, List.eraseDups_nil,
      List.append_nil, ih]

end Snmp
