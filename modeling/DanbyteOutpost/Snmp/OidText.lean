import DanbyteOutpost.Snmp.Mib
import Mathlib.Data.List.TakeWhile

/-!
# OIDs as text

The code takes OIDs apart as text: an OID is under a base when its text begins with the base's and a
dot, and the part behind that dot names the child. On the texts of OIDs this is what `indexIn` says
of their lists; and `_oid_key` orders the texts as the lists are ordered (`oidKey_lt_iff`).

The text of an OID determines it (`dotted_injective`), so nothing is lost by keeping OIDs as lists
everywhere else. What the code does with texts is to test a prefix (`startsWith_dotted_iff`), to
cut one off (`drop_dotted`), to take the part up to the next dot (`partition_dotted`), and to
sort; each of these is translated once.
-/

namespace Snmp

open PyText

variable {base oid index : Oid}

/-- Behind one prefix, the order is that of the rest. -/
theorem append_lt_append_iff {x y : Oid} : base ++ x < base ++ y ↔ x < y := by
  constructor
  · intro h
    rcases lt_trichotomy x y with hlt | rfl | hgt
    · exact hlt
    · exact absurd h (lt_irrefl _)
    · have hback : base ++ y < base ++ x := List.append_left_lt hgt
      exact absurd (h.trans hback) (lt_irrefl _)
  · intro h
    exact List.append_left_lt h

theorem append_le_append_iff {x y : Oid} : base ++ x ≤ base ++ y ↔ x ≤ y := by
  rw [← not_lt, append_lt_append_iff, not_lt]

theorem dot_notMem_digits (n : ℕ) : '.' ∉ Nat.toDigits 10 n := fun h ↦
  absurd (Nat.isDigit_of_mem_toDigits (by decide) (by decide) h) (by decide)

theorem toDigits_injective : Function.Injective (Nat.toDigits 10) := by
  intro m n h
  refine toString_nat_injective ?_
  rw [Nat.toString_eq_ofList_toDigits, h, Nat.toString_eq_ofList_toDigits]

/-- The text of two parts has a dot between them. -/
theorem dotted_append (hbase : base ≠ []) (hindex : index ≠ []) :
    dotted (base ++ index) = dotted base ++ "." ++ dotted index := by
  rw [dotted, List.map_append]
  exact String.intercalate_append_of_ne_nil (by simpa using hbase) (by simpa using hindex)

/-- The text is the digits of the parts with dots between them. -/
theorem dotted_toList (oid : Oid) :
    (dotted oid).toList = ['.'].intercalate (oid.map (Nat.toDigits 10)) := by
  rw [dotted, String.toList_intercalate, List.map_map]
  exact congrArg _ (List.map_congr_left fun n _ ↦ toString_nat_toList n)

/-- The first part comes before the first dot. -/
theorem dotted_cons_cons (part part' : ℕ) (rest : Oid) :
    (dotted (part :: part' :: rest)).toList =
      Nat.toDigits 10 part ++ '.' :: (dotted (part' :: rest)).toList := by
  rw [dotted_toList, dotted_toList, List.map_cons, List.map_cons, List.intercalate_cons_cons,
    List.append_assoc, List.singleton_append]

/-- An OID is read back from its text. -/
theorem splitOn_dotted (h : oid ≠ []) :
    (dotted oid).toList.splitOn '.' = oid.map (Nat.toDigits 10) := by
  rw [dotted_toList, List.splitOn_intercalate _ _ (by simpa using h)]
  intro cs hcs
  obtain ⟨n, -, rfl⟩ := List.mem_map.1 hcs
  exact dot_notMem_digits n

/-- `oid.startswith(base + ".")`. -/
theorem startsWith_dotted_iff (hbase : base ≠ []) :
    (dotted base ++ ".").toList <+: (dotted oid).toList ↔
      ∃ index, indexIn base oid = some index := by
  rw [String.toList_append]
  constructor
  · rintro ⟨rest, hrest⟩
    have hoid : oid ≠ [] := by
      rintro rfl
      exact absurd hrest (by simp [dotted])
    have hsplit := congrArg (List.splitOn '.') hrest
    rw [List.append_assoc, splitOn_dotted hoid] at hsplit
    change ((dotted base).toList ++ '.' :: rest).splitOn '.' = _ at hsplit
    rw [List.splitOn_append_cons_self, splitOn_dotted hbase] at hsplit
    obtain ⟨front, index, rfl, hfront, hindex⟩ := List.map_eq_append_iff.1 hsplit.symm
    obtain rfl := List.map_injective_iff.2 toDigits_injective hfront
    refine ⟨index, indexIn_eq_some.2 ⟨rfl, ?_⟩⟩
    rintro rfl
    exact List.splitOn_ne_nil _ _ hindex.symm
  · rintro ⟨index, hindex⟩
    obtain ⟨rfl, hne⟩ := indexIn_eq_some.1 hindex
    rw [dotted_append hbase hne, String.toList_append, String.toList_append]
    exact List.prefix_append _ _

/-- `oid[len(base) + 1:]`. -/
theorem drop_dotted (hbase : base ≠ []) (h : indexIn base oid = some index) :
    (dotted oid).toList.drop (dotted base ++ ".").length = (dotted index).toList := by
  obtain ⟨rfl, hne⟩ := indexIn_eq_some.1 h
  rw [dotted_append hbase hne, String.toList_append (s := dotted base ++ "."),
    ← String.length_toList, List.drop_left]

/-- `oid.split(".")[0]`. -/
theorem partition_dotted (part : ℕ) (rest : Oid) :
    String.ofList (partition '.' (dotted (part :: rest)).toList).1 = toString part := by
  have hno : '.' ∉ Nat.toDigits 10 part := dot_notMem_digits part
  rw [Nat.toString_eq_ofList_toDigits]
  refine congrArg String.ofList ?_
  cases rest with
  | nil =>
    rw [dotted_toList, List.map_singleton, List.intercalate_singleton, partition_of_notMem hno]
  | cons part' rest => rw [dotted_cons_cons, partition_append hno]

/-! ### The order of texts -/

/-- `_oid_key`; text that is no OID has the empty key. -/
def oidKey (oid : String) : List ℤ :=
  ((oid.toList.splitOn '.').mapM fun part ↦ intOfText (String.ofList part)).getD []

/-- The key that texts are sorted by is the OID, so their order is that of OIDs and not of texts. -/
theorem oidKey_dotted (oid : Oid) : oidKey (dotted oid) = oid.map Int.ofNat := by
  rcases eq_or_ne oid [] with rfl | hne
  · decide +kernel
  · have hpart : ∀ n, intOfText (String.ofList (Nat.toDigits 10 n)) = some (Int.ofNat n) := by
      intro n
      have htext : String.ofList (Nat.toDigits 10 n) = toString n :=
        Nat.toString_eq_ofList_toDigits.symm
      rw [htext, intOfText_toString]
      rfl
    rw [oidKey, splitOn_dotted hne, List.mapM_map]
    simp only [Function.comp_def, hpart]
    have hmap : oid.mapM (fun n ↦ some (Int.ofNat n)) = some (oid.map Int.ofNat) := List.mapM_pure
    rw [hmap, Option.getD_some]

theorem dotted_injective : Function.Injective dotted := by
  intro x y h
  have hkeys := congrArg oidKey h
  rw [oidKey_dotted, oidKey_dotted] at hkeys
  exact List.map_injective_iff.2 (fun _ _ ↦ Int.ofNat.inj) hkeys

/-- The keys of texts are in the order of the lists. -/
theorem oidKey_lt_iff {x y : Oid} : oidKey (dotted x) < oidKey (dotted y) ↔ x < y := by
  have hmono : ∀ {x y : Oid}, x < y → x.map Int.ofNat < y.map Int.ofNat :=
    List.map_lt fun _ _ ↦ Int.ofNat_lt.2
  rw [oidKey_dotted, oidKey_dotted]
  refine ⟨fun h ↦ ?_, hmono⟩
  rcases lt_trichotomy x y with hlt | rfl | hgt
  · exact hlt
  · exact absurd h (lt_irrefl _)
  · exact absurd h (lt_asymm (hmono hgt))

/-! ### Texts that are numbers -/

/-- There are digits and dots in the text of an OID. -/
theorem of_mem_dotted {oid : Oid} {c : Char} (h : c ∈ (dotted oid).toList) :
    c.isDigit = true ∨ c = '.' := by
  have hdigit : ∀ {n}, c ∈ Nat.toDigits 10 n → c.isDigit = true := fun hmem ↦
    Nat.isDigit_of_mem_toDigits (by decide) (by decide) hmem
  induction oid with
  | nil => exact absurd h List.not_mem_nil
  | cons part rest ih =>
    cases rest with
    | nil =>
      rw [dotted_toList, List.map_singleton, List.intercalate_singleton] at h
      exact .inl (hdigit h)
    | cons part' rest =>
      rw [dotted_cons_cons, List.mem_append, List.mem_cons] at h
      rcases h with hfirst | hdot | hrest
      · exact .inl (hdigit hfirst)
      · exact .inr hdot
      · exact ih hrest

/-- The text of an OID is a number when it has one part. -/
theorem intOfText_dotted_eq_some {oid : Oid} {n : ℤ} :
    intOfText (dotted oid) = some n ↔ ∃ part : ℕ, oid = [part] ∧ n = part := by
  cases oid with
  | nil =>
    have hnone : intOfText (dotted []) = none := by decide
    rw [hnone]
    exact ⟨nofun, nofun⟩
  | cons part rest =>
    cases rest with
    | nil =>
      have htext : intOfText (dotted [part]) = some (part : ℤ) := intOfText_toString part
      rw [htext, Option.some.injEq]
      exact ⟨fun h ↦ ⟨part, rfl, h.symm⟩, fun ⟨part', heq, h⟩ ↦ by rw [h, (List.cons.inj heq).1]⟩
    | cons part' rest =>
      have hbody : intBody (dotted (part :: part' :: rest)).toList =
          (dotted (part :: part' :: rest)).toList := by
        refine intBody_of_forall fun c hc ↦ ?_
        rcases of_mem_dotted hc with hdigit | rfl
        · exact plain_of_isDigit hdigit
        · decide
      have hdot : '.' ∈ (dotted (part :: part' :: rest)).toList := by
        rw [dotted_cons_cons]
        exact List.mem_append_right _ List.mem_cons_self
      rw [intOfText_of_dot (hbody.symm ▸ hdot)]
      refine ⟨nofun, fun h ↦ ?_⟩
      obtain ⟨part'', heq, -⟩ := h
      cases heq

end Snmp
