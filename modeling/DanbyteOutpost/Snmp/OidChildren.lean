import DanbyteOutpost.Snmp.OidText
import Mathlib.Data.List.Dedup

/-!
# Browsing the tree

`list_oid_children`: each child of an OID is found with a GETNEXT, and its subtree is skipped by
probing `base.child.4294967295` next. On an agent that answers with the successor of what it is
asked, or with the probed name at the end of its view, the listing is right exactly when nothing
lies strictly behind such a probe in the child's own subtree, and something behind the whole subtree
if the listing gets there (`listOidChildren_iff`).

## The probe

The name probed behind a child is the greatest that has one part below it. An object of the child
strictly behind it is found next, and makes the child be listed again (`SkippedBy`). At the end of
its view an agent hands the probed name back, which is listed as well, unless there is an object
behind the whole subtree for it to go on to (`GoesOnBehind`).

## The proof

`AtChildren` is the invariant of the loop: the name asked for next stands in front of the children
that are left, and behind the ones listed. It is taken through a child that is skipped and one
that is not (`childrenFrom_cons_iff`, `childrenFrom_unskipped_iff`), up to the limit.
-/

namespace Snmp

open PyText

/-! ### The listing -/

/-- What comes out of the `await` of `next_cmd`. -/
inductive NextReply
  /-- A response, with its error indication, its error status and its bindings. -/
  | response (indication : Option String) (status : ℤ) (statusText : String) (binds : List Binding)
  /-- An exception. -/
  | raised (text : String)

/-- A child: its number, its OID, and where the first value under it lives. -/
structure OidChild where
  /-- Its number, as text. -/
  sub : String
  /-- Its OID, as text. -/
  oid : String
  /-- The OID of the first value under it. -/
  firstOid : String
  /-- That value. -/
  sample : String
  deriving DecidableEq

/-- `value.prettyPrint()`. -/
def Value.pretty : Value → String
  | object pretty => pretty
  | null => ""
  | noSuchObject => "No Such Object currently exists at this OID"
  | noSuchInstance => "No Such Instance currently exists at this OID"
  | endOfMibView => "No more variables left in this MIB View"

/-- `text.strip(".")`. -/
def stripDots (text : String) : String :=
  String.ofList (rstripWhere (· = '.') (text.toList.dropWhile (· = '.')))

/-- The loop, for `left` more children; an error once there are children ends the listing. -/
def childrenFrom (next : String → NextReply) (base : String) :
    ℕ → String → List OidChild → Except String (List OidChild)
  | 0, _, out => .ok out
  | left + 1, probe, out =>
    match next probe with
    | .raised text => .error ("snmp error: " ++ text)
    | .response (some indication) .. => if out = [] then .error indication else .ok out
    | .response none status statusText binds =>
      if status ≠ 0 then
        if out = [] then .error statusText else .ok out
      else
        match binds with
        | [] => .ok out
        | b :: _ =>
          let found := dotted b.name
          if (base ++ ".").toList <+: found.toList then
            let sub := String.ofList
              (partition '.' (found.toList.drop (base ++ ".").length)).1
            childrenFrom next base left (base ++ "." ++ sub ++ ".4294967295")
              (out ++ [⟨sub, base ++ "." ++ sub, found, b.value.pretty⟩])
          else .ok out

/-- `list_oid_children(…, base, limit=…)` with its engine set up; an error is the text of its
`SnmpFactsError`. -/
def listOidChildren (next : String → NextReply) (base : String) (limit : ℤ) :
    Except String (List OidChild) :=
  childrenFrom next (stripDots base) limit.toNat (stripDots base) []

/-! ### What it is to list -/

/-- The largest sub-identifier. -/
def maxSubId : ℕ := 4294967295

namespace Mib

/-- The answer to a GETNEXT: the successor of the probed OID, or that OID at the end of the view. -/
def nextBinding (m : Mib) (probe : Oid) : Binding :=
  match m.next probe with
  | some e => ⟨e.1, .object e.2⟩
  | none => ⟨probe, .endOfMibView⟩

/-- An agent with these objects. -/
def AnswersNext (m : Mib) (next : String → NextReply) : Prop :=
  ∀ probe, probe ≠ [] → ∃ statusText rest,
    next (dotted probe) = .response none 0 statusText (m.nextBinding probe :: rest)

/-- The direct children of an OID. -/
def childrenOf (m : Mib) (base : Oid) : List ℕ :=
  (m.entries.filterMap fun e ↦ (indexIn base e.1).bind List.head?).dedup

/-- The first object under an OID, that OID among them. -/
def First (m : Mib) (base oid : Oid) (text : String) : Prop :=
  base <+: oid ∧ m.value oid = some text ∧
    ∀ oid' text', base <+: oid' → m.value oid' = some text' → oid ≤ oid'

/-- What is to be said of a child. -/
structure IsChild (m : Mib) (base : Oid) (c : ℕ) (child : OidChild) : Prop where
  /-- Its number. -/
  sub : child.sub = toString c
  /-- Its OID is the base and its number. -/
  oid : child.oid = dotted (base ++ [c])
  /-- The sample is the first value under it, and lives where it is said to. -/
  first : ∃ oid text, m.First (base ++ [c]) oid text ∧ child.firstOid = dotted oid ∧
    child.sample = text

/-- No object of the child lies behind the probe that is to skip it. -/
def SkippedBy (m : Mib) (base : Oid) (c : ℕ) : Prop :=
  ∀ rest text, m.value (base ++ c :: rest) = some text →
    base ++ c :: rest ≤ base ++ [c, maxSubId]

/-- The agent has an object behind the subtree. -/
def GoesOnBehind (m : Mib) (base : Oid) : Prop :=
  ∃ oid text, m.value oid = some text ∧ base < oid ∧ ¬ base <+: oid

variable {m : Mib} {base : Oid}

/-- A child is what has an object at it or below it. -/
theorem mem_childrenOf {c : ℕ} :
    c ∈ m.childrenOf base ↔ ∃ rest text, m.value (base ++ c :: rest) = some text := by
  rw [childrenOf, List.mem_dedup, List.mem_filterMap]
  constructor
  · rintro ⟨e, he, hsome⟩
    obtain ⟨index, hindex, hhead⟩ := Option.bind_eq_some_iff.1 hsome
    obtain ⟨hoid, -⟩ := indexIn_eq_some.1 hindex
    obtain ⟨rest, rfl⟩ := List.head?_eq_some_iff.1 hhead
    exact ⟨rest, e.2, hoid ▸ mem_iff.1 he⟩
  · rintro ⟨rest, text, hval⟩
    refine ⟨_, mem_iff.2 hval, ?_⟩
    rw [indexIn_eq_some.2 ⟨rfl, List.cons_ne_nil c rest⟩]
    rfl

/-- They are in ascending order, each once. -/
theorem pairwise_childrenOf (m : Mib) (base : Oid) : (m.childrenOf base).Pairwise (· < ·) := by
  have hle : (m.entries.filterMap fun e ↦ (indexIn base e.1).bind List.head?).Pairwise (· ≤ ·) := by
    rw [List.pairwise_filterMap]
    refine (List.pairwise_map.1 m.sorted).imp fun {e e'} hlt c hc c' hc' ↦ ?_
    obtain ⟨index, hindex, hhead⟩ := Option.bind_eq_some_iff.1 hc
    obtain ⟨index', hindex', hhead'⟩ := Option.bind_eq_some_iff.1 hc'
    obtain ⟨rest, rfl⟩ := List.head?_eq_some_iff.1 hhead
    obtain ⟨rest', rfl⟩ := List.head?_eq_some_iff.1 hhead'
    rw [(indexIn_eq_some.1 hindex).1, (indexIn_eq_some.1 hindex').1] at hlt
    rcases List.cons_lt_cons_iff.1 (append_lt_append_iff.1 hlt) with hlt | ⟨rfl, -⟩
    · exact hlt.le
    · exact le_rfl
  exact ((hle.sublist (List.dedup_sublist _)).and (List.nodup_dedup _)).imp
    fun h ↦ lt_of_le_of_ne h.1 h.2

end Mib

/-! ### The texts -/

section Texts

variable {base : Oid}

/-- A text that begins with what stays is not stripped in front. -/
theorem dropWhile_of_head {p : Char → Bool} {cs rest : List Char} (hne : cs ≠ [])
    (h : ∀ c ∈ cs, p c = false) : (cs ++ rest).dropWhile p = cs ++ rest := by
  obtain ⟨c, cs, rfl⟩ := List.exists_cons_of_ne_nil hne
  exact List.dropWhile_cons_of_neg (by rw [h c List.mem_cons_self]; exact Bool.false_ne_true)

/-- The text of an OID begins with a digit. -/
theorem exists_dotted_head (h : base ≠ []) :
    ∃ n rest, (dotted base).toList = Nat.toDigits 10 n ++ rest := by
  obtain ⟨n, base, rfl⟩ := List.exists_cons_of_ne_nil h
  cases base with
  | nil => exact ⟨n, [], by simp [dotted_toList]⟩
  | cons n' base => exact ⟨n, _, dotted_cons_cons n n' base⟩

theorem exists_dotted_last (h : base ≠ []) :
    ∃ n front, (dotted base).toList = front ++ Nat.toDigits 10 n := by
  obtain ⟨init, n, rfl⟩ := (List.eq_nil_or_concat base).resolve_left h
  by_cases hinit : init = []
  · exact ⟨n, [], by simp [hinit, dotted_toList]⟩
  · rw [List.concat_eq_append, dotted_append hinit (List.cons_ne_nil n []), String.toList_append]
    exact ⟨n, _, congrArg _ (by simp [dotted_toList])⟩

theorem stripDots_dotted (h : base ≠ []) : stripDots (dotted base) = dotted base := by
  have hdigits : ∀ n, ∀ c ∈ Nat.toDigits 10 n, decide (c = '.') = false := by
    intro n c hc
    rw [decide_eq_false_iff_not]
    rintro rfl
    exact dot_notMem_digits n hc
  obtain ⟨n, rest, hfront⟩ := exists_dotted_head h
  obtain ⟨n', front, hback⟩ := exists_dotted_last h
  have hleft : (dotted base).toList.dropWhile (· = '.') = (dotted base).toList := by
    rw [hfront]
    exact dropWhile_of_head Nat.toDigits_ne_nil (hdigits n)
  have hright : (dotted base).toList.reverse.dropWhile (· = '.') =
      (dotted base).toList.reverse := by
    rw [hback, List.reverse_append]
    exact dropWhile_of_head (mt List.reverse_eq_nil_iff.1 Nat.toDigits_ne_nil)
      fun c hc ↦ hdigits n' c (List.mem_reverse.1 hc)
  rw [stripDots, hleft, rstripWhere, hright, List.reverse_reverse, String.ofList_toList]

/-- The text of a child is that of its parent, a dot and its number. -/
theorem dotted_child (hbase : base ≠ []) (c : ℕ) :
    dotted base ++ "." ++ toString c = dotted (base ++ [c]) := by
  rw [dotted_append hbase (List.cons_ne_nil c [])]
  simp [dotted]

/-- The probe that is to skip a child. -/
theorem dotted_probe (hbase : base ≠ []) (c : ℕ) :
    dotted base ++ "." ++ toString c ++ ".4294967295" = dotted (base ++ [c, maxSubId]) := by
  have happend : base ++ [c, maxSubId] = (base ++ [c]) ++ [maxSubId] := by simp
  have hmax : dotted [maxSubId] = "4294967295" := by decide +kernel
  rw [dotted_child hbase, happend,
    dotted_append (List.append_ne_nil_of_left_ne_nil hbase _) (List.cons_ne_nil _ _), hmax,
    String.append_assoc]
  rfl

end Texts

/-! ### One probe -/

section Probes

variable {m : Mib} {next : String → NextReply} {base probe rest : Oid} {c left : ℕ}
  {out : List OidChild}

/-- The answer lies behind the base's subtree, or is the base's own. -/
theorem childrenFrom_over (hnext : m.AnswersNext next) (hbase : base ≠ []) (hprobe : probe ≠ [])
    (h : indexIn base (m.nextBinding probe).name = none) :
    childrenFrom next (dotted base) (left + 1) (dotted probe) out = .ok out := by
  obtain ⟨statusText, rest, hreply⟩ := hnext probe hprobe
  have hnot : ¬ (dotted base ++ ".").toList <+: (dotted (m.nextBinding probe).name).toList := by
    rw [startsWith_dotted_iff hbase, h]
    simp
  rw [childrenFrom, hreply]
  dsimp only
  rw [if_neg (by simp), if_neg hnot]

/-- What a probe adds to the listing when its answer lies under the child `c`. -/
def childAt (m : Mib) (base probe : Oid) (c : ℕ) : OidChild :=
  ⟨toString c, dotted (base ++ [c]), dotted (m.nextBinding probe).name,
    (m.nextBinding probe).value.pretty⟩

/-- One probe finds the next child and goes on behind it: the next request asks for what comes after
the child's largest sub-identifier. -/
theorem childrenFrom_child (hnext : m.AnswersNext next) (hbase : base ≠ []) (hprobe : probe ≠ [])
    (h : indexIn base (m.nextBinding probe).name = some (c :: rest)) :
    childrenFrom next (dotted base) (left + 1) (dotted probe) out =
      childrenFrom next (dotted base) left (dotted (base ++ [c, maxSubId]))
        (out ++ [childAt m base probe c]) := by
  obtain ⟨statusText, binds, hreply⟩ := hnext probe hprobe
  have hunder : (dotted base ++ ".").toList <+: (dotted (m.nextBinding probe).name).toList :=
    (startsWith_dotted_iff hbase).2 ⟨_, h⟩
  have hsub : String.ofList (partition '.' ((dotted (m.nextBinding probe).name).toList.drop
      (dotted base ++ ".").length)).1 = toString c := by
    rw [drop_dotted hbase h, partition_dotted]
  rw [childrenFrom, hreply]
  dsimp only
  rw [if_neg (by simp), if_pos hunder, hsub, dotted_probe hbase, dotted_child hbase]
  rfl

/-- A probe that does not get past its child is made again and again. -/
theorem childrenFrom_stuck (hnext : m.AnswersNext next) (hbase : base ≠ [])
    (h : indexIn base (m.nextBinding (base ++ [c, maxSubId])).name = some (c :: rest)) :
    childrenFrom next (dotted base) left (dotted (base ++ [c, maxSubId])) out =
      .ok (out ++ List.replicate left (childAt m base (base ++ [c, maxSubId]) c)) := by
  induction left generalizing out with
  | zero => rw [childrenFrom, List.replicate_zero, List.append_nil]
  | succ left ih =>
    rw [childrenFrom_child hnext hbase (by simp) h, ih, List.append_assoc]
    rfl

end Probes

/-! ### The whole listing -/

section Listing

variable {m : Mib} {next : String → NextReply} {base probe : Oid} {c left : ℕ} {cs : List ℕ}
  {out : List OidChild}

/-- Where the listing is: the objects under the base that lie behind its probe are those of the
children `cs`. -/
structure AtChildren (m : Mib) (base probe : Oid) (cs : List ℕ) : Prop where
  /-- The probe is under the base. -/
  under : base <+: probe
  /-- What lies behind it is under the children that are left, and nothing else is. -/
  behind : ∀ c rest text, m.value (base ++ c :: rest) = some text →
    (probe < base ++ c :: rest ↔ c ∈ cs)
  /-- Each of them has a value. -/
  present : ∀ c ∈ cs, ∃ rest text, m.value (base ++ c :: rest) = some text
  /-- They come in order. -/
  ascending : cs.Pairwise (· < ·)

/-- The first probe is at the front of all the children. -/
theorem atChildren_base (m : Mib) (base : Oid) : AtChildren m base base (m.childrenOf base) where
  under := List.prefix_rfl
  behind := fun c rest text hval ↦
    iff_of_true (lt_append_of_ne_nil (List.cons_ne_nil c rest))
      (Mib.mem_childrenOf.2 ⟨rest, text, hval⟩)
  present := fun _ ↦ Mib.mem_childrenOf.1
  ascending := m.pairwise_childrenOf base

/-- The answer lies under the base exactly if there are children left. -/
theorem AtChildren.next_nil (h : AtChildren m base probe []) {e : Oid × String}
    (hnext : m.next probe = some e) : indexIn base e.1 = none := by
  obtain ⟨hlt, hval, -⟩ := Mib.next_eq_some hnext
  rw [Option.eq_none_iff_forall_ne_some]
  intro index hindex
  obtain ⟨hoid, hne⟩ := indexIn_eq_some.1 hindex
  obtain ⟨c, rest, rfl⟩ := List.exists_cons_of_ne_nil hne
  rw [hoid] at hlt hval
  exact absurd ((h.behind c rest _ hval).1 hlt) List.not_mem_nil

/-- The answer is the first object of the first child left. -/
theorem AtChildren.next_cons (h : AtChildren m base probe (c :: cs)) :
    ∃ rest text, m.next probe = some (base ++ c :: rest, text) ∧
      m.First (base ++ [c]) (base ++ c :: rest) text := by
  obtain ⟨rest₀, text₀, hval₀⟩ := h.present c List.mem_cons_self
  have hlt₀ := (h.behind c rest₀ text₀ hval₀).2 List.mem_cons_self
  rcases hnext : m.next probe with - | ⟨oid, text⟩
  · exact absurd hlt₀ (not_lt.2 (Mib.next_eq_none hnext hval₀))
  obtain ⟨hlt, hval, hleast⟩ := Mib.next_eq_some hnext
  have hbase : base < oid := (le_of_isPrefix h.under).trans_lt hlt
  obtain ⟨tail, rfl⟩ := prefix_of_between (List.prefix_append base (c :: rest₀)) hbase.le
    (hleast _ _ hval₀ hlt₀)
  obtain ⟨d, rest, rfl⟩ : ∃ d rest, tail = d :: rest := by
    refine List.exists_cons_of_ne_nil ?_
    rintro rfl
    rw [List.append_nil] at hbase
    exact absurd hbase (lt_irrefl _)
  -- of the children left it is of the first, since an object of that one lies behind the probe
  obtain rfl : d = c := by
    have hle : d :: rest ≤ c :: rest₀ := append_le_append_iff.1 (hleast _ _ hval₀ hlt₀)
    rcases cons_le_cons_iff.1 hle with hdc | ⟨hdc, -⟩
    · rcases List.mem_cons.1 ((h.behind d rest text hval).1 hlt) with hd | hd
      · exact hd
      · exact absurd hdc (List.rel_of_pairwise_cons h.ascending hd).not_gt
    · exact hdc
  refine ⟨rest, text, rfl, ?_, hval, ?_⟩
  · exact ⟨rest, by simp⟩
  · rintro oid' text' ⟨rest', rfl⟩ hval'
    rw [List.append_assoc, List.singleton_append] at hval' ⊢
    exact hleast _ _ hval' ((h.behind d rest' text' hval').2 List.mem_cons_self)

/-- A probe that skips its child is at the rest of the children. -/
theorem AtChildren.skip (h : AtChildren m base probe (c :: cs)) (hskip : m.SkippedBy base c) :
    AtChildren m base (base ++ [c, maxSubId]) cs where
  under := List.prefix_append _ _
  behind := by
    intro d rest text hval
    have hascending : ∀ d ∈ cs, c < d := fun d ↦ List.rel_of_pairwise_cons h.ascending
    constructor
    · intro hlt
      rcases List.cons_lt_cons_iff.1 (append_lt_append_iff.1 hlt) with hcd | ⟨rfl, -⟩
      · obtain ⟨rest₀, text₀, hval₀⟩ := h.present c List.mem_cons_self
        have hlt₀ := (h.behind c rest₀ text₀ hval₀).2 List.mem_cons_self
        have hcons : base ++ c :: rest₀ < base ++ d :: rest :=
          append_lt_append_iff.2 (List.cons_lt_cons_iff.2 (.inl hcd))
        rcases List.mem_cons.1 ((h.behind d rest text hval).1 (hlt₀.trans hcons)) with rfl | hd
        · exact absurd hcd (lt_irrefl _)
        · exact hd
      · exact absurd hlt (not_lt.2 (hskip rest text hval))
    · intro hd
      exact append_lt_append_iff.2 (List.cons_lt_cons_iff.2 (.inl (hascending d hd)))
  present := fun d hd ↦ h.present d (List.mem_cons_of_mem _ hd)
  ascending := h.ascending.of_cons

/-- Where the probe does not skip its child, or the view ends with the subtree, its answer lies
under the child again. -/
theorem indexIn_stuck (h : ¬ m.SkippedBy base c ∨ m.next (base ++ [c, maxSubId]) = none) :
    ∃ rest, indexIn base (m.nextBinding (base ++ [c, maxSubId])).name = some (c :: rest) := by
  rcases hnext : m.next (base ++ [c, maxSubId]) with - | ⟨oid, text⟩
  · exact ⟨[maxSubId], by
      rw [Mib.nextBinding, hnext]
      exact indexIn_eq_some.2 ⟨rfl, by simp⟩⟩
  · have hskip : ¬ m.SkippedBy base c := h.resolve_right (by simp [hnext])
    simp only [Mib.SkippedBy, not_forall, not_le] at hskip
    obtain ⟨rest₀, text₀, hval₀, hlt₀⟩ := hskip
    obtain ⟨hlt, -, hleast⟩ := Mib.next_eq_some hnext
    have hchild : base ++ [c] ≤ oid := by
      refine (le_of_isPrefix ?_).trans hlt.le
      exact ⟨[maxSubId], by simp⟩
    obtain ⟨rest, rfl⟩ := prefix_of_between (x := base ++ c :: rest₀) ⟨rest₀, by simp⟩ hchild
      (hleast _ _ hval₀ hlt₀)
    refine ⟨rest, ?_⟩
    rw [Mib.nextBinding, hnext]
    exact indexIn_eq_some.2 ⟨by simp, List.cons_ne_nil _ _⟩

/-- The listing is added to, and comes to its end. -/
theorem exists_childrenFrom (hnext : m.AnswersNext next) (hbase : base ≠ []) (left : ℕ)
    (probe : Oid) (hprobe : probe ≠ []) (out : List OidChild) :
    ∃ new, childrenFrom next (dotted base) left (dotted probe) out = .ok (out ++ new) := by
  induction left generalizing probe out with
  | zero => exact ⟨[], by rw [childrenFrom, List.append_nil]⟩
  | succ left ih =>
    rcases hindex : indexIn base (m.nextBinding probe).name with - | index
    · exact ⟨[], by rw [childrenFrom_over hnext hbase hprobe hindex, List.append_nil]⟩
    · obtain ⟨c, rest, rfl⟩ := List.exists_cons_of_ne_nil (indexIn_eq_some.1 hindex).2
      obtain ⟨new, hnew⟩ := ih (base ++ [c, maxSubId]) (by simp)
        (out ++ [childAt m base probe c])
      exact ⟨_, by rw [childrenFrom_child hnext hbase hprobe hindex, hnew, List.append_assoc]⟩

/-- The first child left is listed as it is to be. -/
theorem AtChildren.isChild (h : AtChildren m base probe (c :: cs)) :
    (∃ rest, indexIn base (m.nextBinding probe).name = some (c :: rest)) ∧
      m.IsChild base c (childAt m base probe c) := by
  obtain ⟨rest, text, hnext, hfirst⟩ := h.next_cons
  have hbinding : m.nextBinding probe = ⟨base ++ c :: rest, .object text⟩ := by
    rw [Mib.nextBinding, hnext]
  refine ⟨⟨rest, by rw [hbinding]; exact indexIn_eq_some.2 ⟨rfl, List.cons_ne_nil _ _⟩⟩,
    rfl, rfl, _, _, hfirst, ?_, ?_⟩
  · rw [childAt, hbinding]
  · rw [childAt, hbinding]
    rfl

/-- The rest of a listing whose probe skipped its child. -/
theorem childrenFrom_cons_iff (hnext : m.AnswersNext next) (hbase : base ≠ [])
    (h : AtChildren m base probe (c :: cs)) :
    (∃ new, childrenFrom next (dotted base) (left + 1) (dotted probe) out = .ok (out ++ new) ∧
      List.Forall₂ (m.IsChild base) ((c :: cs).take (left + 1)) new) ↔
    ∃ new, childrenFrom next (dotted base) left (dotted (base ++ [c, maxSubId]))
        (out ++ [childAt m base probe c]) = .ok (out ++ [childAt m base probe c] ++ new) ∧
      List.Forall₂ (m.IsChild base) (cs.take left) new := by
  obtain ⟨⟨rest, hindex⟩, hchild⟩ := h.isChild
  have hprobe : probe ≠ [] := fun hnil ↦
    hbase (List.prefix_nil.1 (hnil ▸ h.under))
  rw [childrenFrom_child hnext hbase hprobe hindex, List.take_succ_cons]
  constructor
  · rintro ⟨new, hnew, hforall⟩
    obtain ⟨new', hnew'⟩ := exists_childrenFrom hnext hbase left (base ++ [c, maxSubId]) (by simp)
      (out ++ [childAt m base probe c])
    rw [hnew', Except.ok.injEq, List.append_assoc, List.append_cancel_left_eq] at hnew
    obtain rfl := hnew
    exact ⟨new', hnew', (List.forall₂_cons.1 hforall).2⟩
  · rintro ⟨new, hnew, hforall⟩
    exact ⟨childAt m base probe c :: new, by rw [hnew, List.append_assoc]; rfl,
      .cons hchild hforall⟩

/-- Behind the last child a listing is over, unless the view ends with the subtree: then the probe
behind that child is answered with itself. -/
theorem childrenFrom_nil_iff (hnext : m.AnswersNext next) (hbase : base ≠ [])
    (h : AtChildren m base probe [])
    (hplace : probe = base ∨ ∃ c, probe = base ++ [c, maxSubId]) :
    childrenFrom next (dotted base) (left + 1) (dotted probe) out = .ok out ↔
      (probe ≠ base → m.GoesOnBehind base) := by
  have hprobe : probe ≠ [] := fun hnil ↦ hbase (List.prefix_nil.1 (hnil ▸ h.under))
  rcases hn : m.next probe with - | e
  · rcases hplace with rfl | ⟨c, rfl⟩
    · have hover : indexIn probe (m.nextBinding probe).name = none := by
        rw [Mib.nextBinding, hn]
        exact if_neg fun hne ↦ hne.2 rfl
      exact iff_of_true (childrenFrom_over hnext hbase hprobe hover) fun hne ↦ absurd rfl hne
    · obtain ⟨rest, hstuck⟩ : ∃ rest, indexIn base
          (m.nextBinding (base ++ [c, maxSubId])).name = some (c :: rest) :=
        indexIn_stuck (.inr hn)
      refine iff_of_false ?_ fun hgoes ↦ ?_
      · rw [childrenFrom_stuck hnext hbase hstuck, Except.ok.injEq]
        simp
      · obtain ⟨oid, text, hval, hlt, hnot⟩ := hgoes (by simp)
        exact hnot (prefix_of_between h.under hlt.le (Mib.next_eq_none hn hval))
  · have hover : indexIn base (m.nextBinding probe).name = none := by
      rw [Mib.nextBinding, hn]
      exact h.next_nil hn
    refine iff_of_true (childrenFrom_over hnext hbase hprobe hover) fun _ ↦ ?_
    obtain ⟨hlt, hval, -⟩ := Mib.next_eq_some hn
    have hlt' : base < e.1 := (le_of_isPrefix h.under).trans_lt hlt
    refine ⟨e.1, e.2, hval, hlt', fun hpre ↦ ?_⟩
    have hnone := h.next_nil hn
    rw [indexIn, if_pos ⟨hpre, hlt'.ne⟩] at hnone
    cases hnone

/-- Behind a child that its probe does not skip, a listing with room is not that of the children. -/
theorem childrenFrom_unskipped_iff (hnext : m.AnswersNext next) (hbase : base ≠ [])
    (hascending : (c :: cs).Pairwise (· < ·)) (hskip : ¬ m.SkippedBy base c) :
    (∃ new, childrenFrom next (dotted base) left (dotted (base ++ [c, maxSubId])) out =
        .ok (out ++ new) ∧ List.Forall₂ (m.IsChild base) (cs.take left) new) ↔ left = 0 := by
  obtain ⟨rest, hstuck⟩ := indexIn_stuck (.inl hskip)
  rw [childrenFrom_stuck hnext hbase hstuck]
  cases left with
  | zero => exact iff_of_true ⟨[], by simp, by simp⟩ rfl
  | succ left =>
    refine iff_of_false ?_ (Nat.succ_ne_zero left)
    rintro ⟨new, hnew, hforall⟩
    rw [Except.ok.injEq, List.append_cancel_left_eq] at hnew
    rw [← hnew, List.replicate_succ] at hforall
    cases cs with
    | nil => cases hforall
    | cons d cs =>
      rw [List.take_succ_cons] at hforall
      have hsub : toString c = toString d := (List.forall₂_cons.1 hforall).1.sub
      have hlt : c < d := List.rel_of_pairwise_cons hascending List.mem_cons_self
      exact absurd (toString_nat_injective hsub) hlt.ne

/-- The loop lists what is left of the children: by induction on the limit. -/
theorem childrenFrom_iff (hnext : m.AnswersNext next) (hbase : base ≠ []) (left : ℕ)
    (h : AtChildren m base probe cs)
    (hplace : probe = base ∨ ∃ c, probe = base ++ [c, maxSubId]) (out : List OidChild) :
    (∃ new, childrenFrom next (dotted base) left (dotted probe) out = .ok (out ++ new) ∧
      List.Forall₂ (m.IsChild base) (cs.take left) new) ↔
    (∀ c ∈ cs.take (left - 1), m.SkippedBy base c) ∧
      (cs ≠ [] ∨ probe ≠ base → cs.length < left → m.GoesOnBehind base) := by
  induction left generalizing probe cs out with
  | zero => exact iff_of_true ⟨[], by simp [childrenFrom], by simp⟩ (by simp)
  | succ left ih =>
  cases cs with
  | nil =>
    have hiff : childrenFrom next (dotted base) (left + 1) (dotted probe) out = .ok out ↔
        (probe ≠ base → m.GoesOnBehind base) := childrenFrom_nil_iff hnext hbase h hplace
    simpa using hiff
  | cons c cs =>
    rw [childrenFrom_cons_iff hnext hbase h]
    by_cases hskip : m.SkippedBy base c
    · rw [ih (h.skip hskip) (.inr ⟨c, rfl⟩)]
      refine and_congr ?_ ?_
      · cases left with
        | zero => simp
        | succ left =>
          rw [Nat.add_sub_cancel, Nat.add_sub_cancel, List.take_succ_cons, List.forall_mem_cons,
            and_iff_right hskip]
      · simp
    · rw [childrenFrom_unskipped_iff hnext hbase h.ascending hskip]
      cases left with
      | zero => simp
      | succ left =>
        refine iff_of_false (Nat.succ_ne_zero left) ?_
        rintro ⟨hall, -⟩
        exact hskip (hall c (by simp))

end Listing

/-- The listing of an OID is that of its first children up to the limit, each once, exactly if every
child listed with room behind it is skipped by its probe, and the agent goes on behind a subtree
whose children do not reach the limit.

The probe behind a child is an OID of one more arc, and an object that lies behind it may be the
child's still; and the answer at the end of the MIB repeats the name that was asked for. The loop
sees neither. -/
theorem listOidChildren_iff {m : Mib} {next : String → NextReply} (hnext : m.AnswersNext next)
    {base : Oid} (hbase : base ≠ []) (limit : ℤ) :
    (∃ out, listOidChildren next (dotted base) limit = .ok out ∧
      List.Forall₂ (m.IsChild base) ((m.childrenOf base).take limit.toNat) out) ↔
    (∀ c ∈ (m.childrenOf base).take (limit.toNat - 1), m.SkippedBy base c) ∧
      (m.childrenOf base ≠ [] → (m.childrenOf base).length < limit.toNat →
        m.GoesOnBehind base) := by
  have h := childrenFrom_iff hnext hbase limit.toNat (atChildren_base m base) (.inl rfl) []
  simp only [List.nil_append, ne_eq, not_true_eq_false, or_false] at h
  rw [listOidChildren, stripDots_dotted hbase]
  exact h

/-! ### An agent -/

/-- An OID read from its text. -/
def ofDotted (text : String) : Oid :=
  (text.toList.splitOn '.').map fun part ↦ Nat.ofDigitChars 10 part 0

theorem ofDotted_dotted {oid : Oid} (h : oid ≠ []) : ofDotted (dotted oid) = oid := by
  rw [ofDotted, splitOn_dotted h, List.map_map]
  exact List.map_id'' (fun n ↦ Nat.ofDigitChars_ten_toDigits) oid

/-- The agent that serves these objects. -/
def Mib.serve (m : Mib) (probe : String) : NextReply :=
  .response none 0 "" [m.nextBinding (ofDotted probe)]

theorem Mib.answersNext_serve (m : Mib) : m.AnswersNext m.serve := fun probe hprobe ↦
  ⟨"", [], by rw [serve, ofDotted_dotted hprobe]⟩

/-- A child is passed over if nothing of the agent's lies behind its largest sub-identifier. -/
theorem Mib.skippedBy_of_entries {m : Mib} {base : Oid} {c : ℕ}
    (h : ∀ e ∈ m.entries, base ++ [c] <+: e.1 → e.1 ≤ base ++ [c, maxSubId]) :
    m.SkippedBy base c := fun rest _ hval ↦
  h _ (mem_iff.2 hval) ⟨rest, by simp⟩

/-- An agent with two objects under an OID and one behind it. -/
def twoChildren : Mib where
  entries := [([1, 3, 5, 2], "a"), ([1, 3, 5, 7, 1], "b"), ([1, 3, 6], "c")]
  sorted := by decide

/-- Both children of the example are listed. -/
theorem twoChildren_listed :
    ∃ out, listOidChildren twoChildren.serve (dotted [1, 3, 5]) 64 = .ok out ∧
      List.Forall₂ (twoChildren.IsChild [1, 3, 5])
        ((twoChildren.childrenOf [1, 3, 5]).take 64) out :=
  (listOidChildren_iff twoChildren.answersNext_serve (by decide) 64).2
    ⟨fun c hc ↦ Mib.skippedBy_of_entries
      ((by decide +kernel : ∀ c ∈ (twoChildren.childrenOf [1, 3, 5]).take (64 - 1),
        ∀ e ∈ twoChildren.entries, [1, 3, 5] ++ [c] <+: e.1 →
          e.1 ≤ [1, 3, 5] ++ [c, maxSubId]) c hc),
    fun _ _ ↦ ⟨[1, 3, 6], "c", by decide +kernel⟩⟩

/-- The agent's view ends with the OID's subtree. -/
def onlyChild : Mib where
  entries := [([1, 3, 5, 2], "a")]
  sorted := by decide

/-- The one child is listed up to the limit. -/
theorem onlyChild_repeated :
    (listOidChildren onlyChild.serve (dotted [1, 3, 5]) 3).toOption.map
        (List.map OidChild.sub) = some ["2", "2", "2"] ∧
      ¬ ∃ out, listOidChildren onlyChild.serve (dotted [1, 3, 5]) 3 = .ok out ∧
        List.Forall₂ (onlyChild.IsChild [1, 3, 5])
          ((onlyChild.childrenOf [1, 3, 5]).take 3) out := by
  have hrepeated : (listOidChildren onlyChild.serve (dotted [1, 3, 5]) 3).toOption.map
      (List.map OidChild.sub) = some ["2", "2", "2"] := by decide +kernel
  refine ⟨hrepeated, ?_⟩
  rintro ⟨out, hout, hforall⟩
  rw [hout] at hrepeated
  have hlength : out.length = 3 := by
    rw [← List.length_map (f := OidChild.sub), Option.some.inj hrepeated]
    rfl
  have hone : ((onlyChild.childrenOf [1, 3, 5]).take 3).length = 1 := by decide +kernel
  rw [hforall.length_eq, hlength] at hone
  cases hone

end Snmp
