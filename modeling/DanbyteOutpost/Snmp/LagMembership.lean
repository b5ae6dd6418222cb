import DanbyteOutpost.Data.Dict
import DanbyteOutpost.Data.PyText

/-!
# Membership in aggregates

`parse_lag_membership`: the LAG MIB says what aggregate a port is attached to, and ifStackTable says
of the others what they are stacked under. The loops come to one equation for each interface
(`get?_parseLagMembership`): the aggregate it is attached to, or else the higher layer of the first
row of the stack that counts for it. Who is a member is a matter of single entries
(`mem_keys_parseLagMembership`).

The loop over the LAG MIB leaves a port out that is attached to itself. The loop over the stack does
not look: a row of an aggregate over itself makes it its own member (`membershipRight_iff`).

## The three properties

`MembershipRight` asks that no interface is its own member, that members are the right ones, and
that the order of the rows does not matter where an interface is under one aggregate. Only the
first can fail, for an aggregate that is stacked over itself in front of all others
(`OverItselfFirst`, `membershipRight_iff`). Where an interface is under two, `steady_iff` says
exactly when the order matters.
-/

namespace Snmp

open PyText

/-- `_IFTYPE_LAG` -/
def iftypeLag : String := "161"

/-- The port `idx` is attached to the aggregate `agg`. -/
def attachesTo (agg idx : String) : Prop := agg ≠ "" ∧ agg ≠ "0" ∧ agg ≠ idx

instance (agg idx : String) : Decidable (attachesTo agg idx) := inferInstanceAs (Decidable (_ ∧ _))

/-- An entry of `agg_attached`. -/
def attachPort (out : Dict String String) (e : String × String) : Dict String String :=
  if attachesTo e.2 e.1 then out.set e.1 e.2 else out

/-- `higher` and `lower` of `str(key).partition(".")`. -/
def stackLayers (key : String) : String × String :=
  let (higher, _, lower) := partition '.' key.toList
  (String.ofList higher, String.ofList lower)

/-- An entry of `if_stack`. -/
def stackPort (ifTypes : Dict String String) (out : Dict String String) (e : String × String) :
    Dict String String :=
  let (higher, lower) := stackLayers e.1
  if e.2 ≠ "1" ∧ e.2 ≠ "active" then out
  else if higher = "" ∨ higher = "0" ∨ lower = "" ∨ lower = "0" ∨ out.contains lower = true then out
  else if (ifTypes.get? higher).getD "" = iftypeLag then out.set lower higher
  else out

/-- `parse_lag_membership`. -/
def parseLagMembership (aggAttached ifStack ifTypes : Dict String String) : Dict String String :=
  ifStack.items.foldl (stackPort ifTypes) (aggAttached.items.foldl attachPort Dict.empty)

/-! ### What the loops leave -/

/-- An entry of `if_stack` that counts: it is active, and an ieee8023adLag interface is over
another. -/
structure StacksOver (ifTypes : Dict String String) (e : String × String) (higher lower : String) :
    Prop where
  /-- The key names both interfaces. -/
  layers : stackLayers e.1 = (higher, lower)
  /-- The row is in use. -/
  active : e.2 = "1" ∨ e.2 = "active"
  /-- Something is above. -/
  above : higher ≠ "" ∧ higher ≠ "0"
  /-- Something is below. -/
  below : lower ≠ "" ∧ lower ≠ "0"
  /-- What is above is an aggregate. -/
  lag : (ifTypes.get? higher).getD "" = iftypeLag

/-- An entry of the stack that counts puts `higher` over `lower`. -/
def Over (ifTypes ifStack : Dict String String) (higher lower : String) : Prop :=
  ∃ e ∈ ifStack.items, StacksOver ifTypes e higher lower

variable {out aggAttached ifStack ifTypes : Dict String String} {e : String × String}
  {a h i : String}

/-- What an active row over an aggregate is. -/
theorem stacksOver_iff : StacksOver ifTypes e h i ↔ stackLayers e.1 = (h, i) ∧
    (e.2 = "1" ∨ e.2 = "active") ∧ (h ≠ "" ∧ h ≠ "0") ∧ (i ≠ "" ∧ i ≠ "0") ∧
      (ifTypes.get? h).getD "" = iftypeLag :=
  ⟨fun hover ↦ ⟨hover.layers, hover.active, hover.above, hover.below, hover.lag⟩,
    fun ⟨hlayers, hactive, habove, hbelow, hlag⟩ ↦ ⟨hlayers, hactive, habove, hbelow, hlag⟩⟩

instance : Decidable (StacksOver ifTypes e h i) := decidable_of_iff _ stacksOver_iff.symm

/-- The aggregate that the LAG MIB attaches a port to. -/
def attachedTo (aggAttached : Dict String String) (i : String) : Option String :=
  (aggAttached.get? i).filter fun agg ↦ attachesTo agg i

/-- The aggregate that an entry of `if_stack` puts over an interface. -/
def aggregateOver (ifTypes : Dict String String) (i : String) (e : String × String) :
    Option String :=
  if StacksOver ifTypes e (stackLayers e.1).1 i then some (stackLayers e.1).1 else none

/-- The aggregate that the stack puts over an interface first. -/
def firstOver (ifTypes ifStack : Dict String String) (i : String) : Option String :=
  ifStack.items.findSome? (aggregateOver ifTypes i)

/-- An interface is attached to what its row says, if that is an aggregate and not the interface. -/
theorem attachedTo_eq_some_iff :
    attachedTo aggAttached i = some a ↔ aggAttached.get? i = some a ∧ attachesTo a i := by
  rw [attachedTo, Option.filter_eq_some_iff, decide_eq_true_eq]

/-- A row puts an interface under an aggregate. -/
theorem aggregateOver_eq_some_iff :
    aggregateOver ifTypes i e = some h ↔ StacksOver ifTypes e h i := by
  rw [aggregateOver, Option.ite_none_right_eq_some, Option.some_inj]
  constructor
  · rintro ⟨hover, rfl⟩
    exact hover
  · intro hover
    have heq : (stackLayers e.1).1 = h := congrArg Prod.fst hover.layers
    exact ⟨heq ▸ hover, heq⟩

theorem aggregateOver_eq_none_iff :
    aggregateOver ifTypes i e = none ↔ ∀ h, ¬ StacksOver ifTypes e h i := by
  rw [Option.eq_none_iff_forall_ne_some]
  exact forall_congr' fun h ↦ not_congr aggregateOver_eq_some_iff

/-- The first one over an interface is over it. -/
theorem over_of_firstOver (hfirst : firstOver ifTypes ifStack i = some h) :
    Over ifTypes ifStack h i := by
  obtain ⟨e, he, hover⟩ := List.exists_of_findSome?_eq_some hfirst
  exact ⟨e, he, aggregateOver_eq_some_iff.1 hover⟩

theorem firstOver_ne_none (hover : Over ifTypes ifStack h i) :
    firstOver ifTypes ifStack i ≠ none := by
  obtain ⟨e, he, hover⟩ := hover
  intro hnone
  exact aggregateOver_eq_none_iff.1 (List.findSome?_eq_none_iff.1 hnone e he) h hover

/-- A row of the attachment table sets its own port. -/
theorem get?_attachPort :
    (attachPort out e).get? i = if e.1 = i ∧ attachesTo e.2 i then some e.2 else out.get? i := by
  rw [attachPort]
  split
  case isTrue hattach =>
    rw [Dict.get?_set]
    refine if_congr ⟨?_, And.left⟩ rfl rfl
    rintro rfl
    exact ⟨rfl, hattach⟩
  case isFalse hattach =>
    rw [if_neg]
    rintro ⟨rfl, h⟩
    exact hattach h

/-- No port has two entries in `agg_attached`, so the last assignment is the only one. -/
theorem get?_foldl_attachPort :
    (aggAttached.items.foldl attachPort Dict.empty).get? i = attachedTo aggAttached i := by
  have hloop : ∀ (es : List (String × String)) (out : Dict String String),
      (es.map Prod.fst).Nodup → (es.foldl attachPort out).get? i =
        ((Assoc.get? i es).filter fun agg ↦ attachesTo agg i).or (out.get? i) := by
    intro es
    induction es with
    | nil => exact fun _ _ ↦ rfl
    | cons e es ih =>
      intro out hnd
      rw [List.map_cons, List.nodup_cons] at hnd
      rw [List.foldl_cons, ih _ hnd.2, get?_attachPort, Assoc.get?]
      by_cases hkey : e.1 = i
      · have hnone : Assoc.get? i es = none := Assoc.get?_eq_none_iff.2 (hkey ▸ hnd.1)
        rw [hnone, if_pos hkey, Option.filter_none, Option.none_or, Option.filter_some]
        by_cases hattach : attachesTo e.2 i
        · rw [if_pos ⟨hkey, hattach⟩, if_pos (decide_eq_true hattach), Option.some_or]
        · rw [if_neg fun h ↦ hattach h.2, if_neg (by rwa [decide_eq_true_eq]), Option.none_or]
      · rw [if_neg fun h ↦ hkey h.1, if_neg hkey]
  exact (hloop _ _ aggAttached.nodup).trans (Option.or_none ..)

/-- An entry of the stack gives its lower layer an aggregate when it has none yet. -/
theorem get?_stackPort :
    (stackPort ifTypes out e).get? i = (out.get? i).or (aggregateOver ifTypes i e) := by
  -- what makes no new member leaves what is there
  have hskip : (∀ h, StacksOver ifTypes e h i → (out.get? i).isSome) →
      out.get? i = (out.get? i).or (aggregateOver ifTypes i e) := by
    intro hmem
    cases hover : aggregateOver ifTypes i e with
    | none => rw [Option.or_none]
    | some h => rw [Option.or_of_isSome (hmem h (aggregateOver_eq_some_iff.1 hover))]
  rw [stackPort]
  rcases hlayers : stackLayers e.1 with ⟨higher, lower⟩
  have hof : ∀ {h}, StacksOver ifTypes e h i → higher = h ∧ lower = i :=
    fun hover ↦ Prod.mk.inj (hlayers.symm.trans hover.layers)
  dsimp only
  split
  -- the row is not active
  case isTrue hdown =>
    refine hskip fun h hover ↦ ?_
    rcases hover.active with heq | heq
    · exact absurd heq hdown.1
    · exact absurd heq hdown.2
  case isFalse hactive =>
  split
  -- a layer is missing, or the lower one is a member already
  case isTrue hblank =>
    refine hskip fun h hover ↦ ?_
    obtain ⟨rfl, rfl⟩ := hof hover
    rcases hblank with heq | heq | heq | heq | hmem
    · exact absurd heq hover.above.1
    · exact absurd heq hover.above.2
    · exact absurd heq hover.below.1
    · exact absurd heq hover.below.2
    · exact hmem
  case isFalse hblank =>
  split
  case isTrue hlag =>
    have hover : StacksOver ifTypes e higher lower :=
      ⟨hlayers, by tauto, by tauto, by tauto, hlag⟩
    rw [Dict.get?_set]
    split
    case isTrue hkey =>
      subst hkey
      have hnone : out.get? lower = none := by
        rw [← Option.not_isSome_iff_eq_none]
        exact fun h ↦ hblank (.inr (.inr (.inr (.inr h))))
      rw [hnone, Option.none_or, aggregateOver_eq_some_iff.2 hover]
    case isFalse hkey => exact hskip fun h hover' ↦ absurd (hof hover').2 hkey
  case isFalse hlag =>
    refine hskip fun h hover ↦ ?_
    obtain ⟨rfl, -⟩ := hof hover
    exact absurd hover.lag hlag

/-- The aggregate of an interface. -/
theorem get?_parseLagMembership :
    (parseLagMembership aggAttached ifStack ifTypes).get? i =
      (attachedTo aggAttached i).or (firstOver ifTypes ifStack i) := by
  have hstep : ∀ (out : Dict String String) (e : String × String) (i : String),
      (stackPort ifTypes out e).get? i = (out.get? i).or (aggregateOver ifTypes i e) :=
    fun _ _ _ ↦ get?_stackPort
  rw [parseLagMembership, Dict.get?_foldl_or hstep, get?_foldl_attachPort, firstOver]

/-! ### Who is a member -/

/-- Where the aggregate of a member comes from. -/
theorem of_get?_parseLagMembership
    (hget : (parseLagMembership aggAttached ifStack ifTypes).get? i = some a) :
    attachedTo aggAttached i = some a ∨
      attachedTo aggAttached i = none ∧ Over ifTypes ifStack a i := by
  rw [get?_parseLagMembership, Option.or_eq_some_iff] at hget
  exact hget.imp_right fun ⟨hnone, hfirst⟩ ↦ ⟨hnone, over_of_firstOver hfirst⟩

/-- The members are those that an entry of either table makes one. -/
theorem mem_keys_parseLagMembership : i ∈ (parseLagMembership aggAttached ifStack ifTypes).keys ↔
    (∃ e ∈ aggAttached.items, e.1 = i ∧ attachesTo e.2 i) ∨
      ∃ e ∈ ifStack.items, ∃ h, StacksOver ifTypes e h i := by
  constructor
  · intro hmem
    obtain ⟨a, hget⟩ := Dict.mem_keys_iff.1 hmem
    rcases of_get?_parseLagMembership hget with hattached | ⟨-, e, he, hover⟩
    · obtain ⟨hentry, hattaches⟩ := attachedTo_eq_some_iff.1 hattached
      exact .inl ⟨(i, a), Dict.mem_items_iff.2 hentry, rfl, hattaches⟩
    · exact .inr ⟨e, he, a, hover⟩
  · intro hentry
    rw [Dict.mem_keys_iff, get?_parseLagMembership, ← Option.isSome_iff_exists, Option.isSome_or,
      Bool.or_eq_true]
    rcases hentry with ⟨e, he, rfl, hattaches⟩ | ⟨e, he, h, hover⟩
    · exact .inl (Option.isSome_of_eq_some
        (attachedTo_eq_some_iff.2 ⟨Dict.get?_of_mem he, hattaches⟩))
    · exact .inr (Option.isSome_iff_ne_none.2 (firstOver_ne_none ⟨e, he, hover⟩))

/-- No member has a blank aggregate, or the aggregate 0. -/
theorem ne_of_get?_parseLagMembership
    (hget : (parseLagMembership aggAttached ifStack ifTypes).get? i = some a) :
    a ≠ "" ∧ a ≠ "0" := by
  rcases of_get?_parseLagMembership hget with hattached | ⟨-, e, -, hover⟩
  · obtain ⟨-, hblank, hzero, -⟩ := attachedTo_eq_some_iff.1 hattached
    exact ⟨hblank, hzero⟩
  · exact hover.above

/-- A blank `lag_if_index` is one that is no member's. -/
theorem getD_parseLagMembership_eq_blank_iff :
    ((parseLagMembership aggAttached ifStack ifTypes).get? i).getD "" = "" ↔
      i ∉ (parseLagMembership aggAttached ifStack ifTypes).keys := by
  rw [← Dict.get?_eq_none_iff]
  cases hget : (parseLagMembership aggAttached ifStack ifTypes).get? i with
  | none => exact iff_of_true rfl rfl
  | some v => exact iff_of_false (ne_of_get?_parseLagMembership hget).1 (Option.some_ne_none v)

/-! ### Who is its own member -/

/-- The first entry of the stack that counts for an interface puts it over itself. -/
def OverItselfFirst (ifTypes ifStack : Dict String String) (i : String) : Prop :=
  ∃ before e after, ifStack.items = before ++ e :: after ∧ StacksOver ifTypes e i i ∧
    ∀ e' ∈ before, ∀ h, ¬ StacksOver ifTypes e' h i

/-- An interface may be stacked over itself first. -/
theorem overItselfFirst_iff :
    OverItselfFirst ifTypes ifStack i ↔ firstOver ifTypes ifStack i = some i := by
  simp only [firstOver, List.findSome?_eq_some_iff, aggregateOver_eq_some_iff,
    aggregateOver_eq_none_iff, OverItselfFirst]

/-- An interface is its own member when the LAG MIB attaches it nowhere and the stack puts it over
itself before it puts it under another. -/
theorem get?_parseLagMembership_eq_self_iff :
    (parseLagMembership aggAttached ifStack ifTypes).get? i = some i ↔
      attachedTo aggAttached i = none ∧ OverItselfFirst ifTypes ifStack i := by
  rw [get?_parseLagMembership, Option.or_eq_some_iff, overItselfFirst_iff, or_iff_right]
  intro hattached
  obtain ⟨-, -, -, hne⟩ := attachedTo_eq_some_iff.1 hattached
  exact hne rfl

/-! ### The rows in another order -/

/-- The attachment does not depend on the order of the rows, each interface having one. -/
theorem attachedTo_of_perm {aggAttached' : Dict String String}
    (hattached : aggAttached'.items.Perm aggAttached.items) (i : String) :
    attachedTo aggAttached' i = attachedTo aggAttached i := by
  rw [attachedTo, attachedTo, Dict.get?_of_perm hattached]

/-- An interface under one aggregate has it in any order of the stack. -/
theorem firstOver_of_perm {ifStack' : Dict String String}
    (hstack : ifStack'.items.Perm ifStack.items)
    (hone : ∀ h h', Over ifTypes ifStack h i → Over ifTypes ifStack h' i → h = h') :
    firstOver ifTypes ifStack' i = firstOver ifTypes ifStack i := by
  refine hstack.findSome?_eq fun e he e' he' h h' hover hover' ↦ hone h h' ?_ ?_
  · exact ⟨e, he, aggregateOver_eq_some_iff.1 hover⟩
  · exact ⟨e', he', aggregateOver_eq_some_iff.1 hover'⟩

/-- Only the interfaces that the LAG MIB leaves to the stack can depend on the order. -/
theorem get?_parseLagMembership_of_perm {aggAttached' ifStack' : Dict String String}
    (hattached : aggAttached'.items.Perm aggAttached.items)
    (hstack : ifStack'.items.Perm ifStack.items)
    (hone : attachedTo aggAttached i = none →
      ∀ h h', Over ifTypes ifStack h i → Over ifTypes ifStack h' i → h = h') :
    (parseLagMembership aggAttached' ifStack' ifTypes).get? i =
      (parseLagMembership aggAttached ifStack ifTypes).get? i := by
  rw [get?_parseLagMembership, get?_parseLagMembership, attachedTo_of_perm hattached]
  cases hi : attachedTo aggAttached i with
  | none => rw [firstOver_of_perm hstack (hone hi)]
  | some a => rfl

/-- The stack with one of its entries first. -/
def moveFront (ifStack : Dict String String) (e : String × String) (he : e ∈ ifStack.items) :
    Dict String String :=
  ⟨e :: ifStack.items.erase e,
    ((List.perm_cons_erase he).map Prod.fst).nodup_iff.1 ifStack.nodup⟩

theorem firstOver_moveFront (he : e ∈ ifStack.items) (hover : StacksOver ifTypes e h i) :
    firstOver ifTypes (moveFront ifStack e he) i = some h := by
  rw [firstOver, moveFront, List.findSome?_cons, aggregateOver_eq_some_iff.2 hover]

/-- Where no interface has two aggregates over it besides itself, one over itself that the stack
decides about is its own member in some order of the stack. -/
theorem steady_iff (hone : ∀ i h h', Over ifTypes ifStack h i → Over ifTypes ifStack h' i →
      h ≠ i → h' ≠ i → h = h') :
    ((∀ ifStack' : Dict String String, ifStack'.items.Perm ifStack.items →
        ∀ i, (parseLagMembership aggAttached ifStack' ifTypes).get? i =
          (parseLagMembership aggAttached ifStack ifTypes).get? i) ∧
      ∀ i, (parseLagMembership aggAttached ifStack ifTypes).get? i ≠ some i) ↔
        ∀ i, attachedTo aggAttached i = none → ¬ Over ifTypes ifStack i i := by
  constructor
  · rintro ⟨hsame, hown⟩ i hnone ⟨e, he, hover⟩
    refine hown i ?_
    rw [← hsame (moveFront ifStack e he) (List.perm_cons_erase he).symm, get?_parseLagMembership,
      hnone, Option.none_or, firstOver_moveFront he hover]
  · intro hnot
    refine ⟨fun ifStack' hstack i ↦ ?_, fun i hget ↦ ?_⟩
    · refine get?_parseLagMembership_of_perm (.refl _) hstack fun hnone h h' hover hover' ↦ ?_
      refine hone i h h' hover hover' ?_ ?_
      · rintro rfl
        exact hnot h hnone hover
      · rintro rfl
        exact hnot h' hnone hover'
    · obtain ⟨hnone, hself⟩ := get?_parseLagMembership_eq_self_iff.1 hget
      exact hnot i hnone (over_of_firstOver (overItselfFirst_iff.1 hself))

/-! ### The membership that is read -/

/-- What is to hold of the members, of their aggregates, and of the tables in another order. -/
structure MembershipRight (aggAttached ifStack ifTypes : Dict String String) : Prop where
  /-- No interface is its own aggregate, and an aggregate has an index. -/
  own : ∀ i a, (parseLagMembership aggAttached ifStack ifTypes).get? i = some a →
    a ≠ i ∧ a ≠ "" ∧ a ≠ "0"
  /-- What dot3adAggPortTable says holds, whatever the stack says. -/
  attached : ∀ i a, attachedTo aggAttached i = some a → ∀ ifStack' : Dict String String,
    (parseLagMembership aggAttached ifStack' ifTypes).get? i = some a
  /-- Where it says nothing, the stack has the member under its aggregate. -/
  stacked : ∀ i a, (parseLagMembership aggAttached ifStack ifTypes).get? i = some a →
    attachedTo aggAttached i = none → Over ifTypes ifStack a i
  /-- Who is under an aggregate in the stack is a member of one. -/
  complete : ∀ h i, Over ifTypes ifStack h i → h ≠ i →
    i ∈ (parseLagMembership aggAttached ifStack ifTypes).keys
  /-- Where the stack has each member under one aggregate, the order of the rows does not matter. -/
  orders : (∀ i h h', Over ifTypes ifStack h i → Over ifTypes ifStack h' i → h = h') →
    ∀ aggAttached' ifStack' : Dict String String, aggAttached'.items.Perm aggAttached.items →
      ifStack'.items.Perm ifStack.items → ∀ i,
        (parseLagMembership aggAttached' ifStack' ifTypes).get? i =
          (parseLagMembership aggAttached ifStack ifTypes).get? i

/-- The membership is right when no interface is its own member.

The stack is not looked at for an interface over itself, as dot3adAggPortTable is. -/
theorem membershipRight_iff : MembershipRight aggAttached ifStack ifTypes ↔
    ∀ i, attachedTo aggAttached i = none → ¬ OverItselfFirst ifTypes ifStack i := by
  constructor
  · intro hright i hnone hself
    have hget : (parseLagMembership aggAttached ifStack ifTypes).get? i = some i :=
      get?_parseLagMembership_eq_self_iff.2 ⟨hnone, hself⟩
    exact (hright.own i i hget).1 rfl
  · intro hnot
    refine ⟨fun i a hget ↦ ⟨?_, ne_of_get?_parseLagMembership hget⟩, ?_, ?_, ?_, ?_⟩
    · rintro rfl
      obtain ⟨hnone, hself⟩ := get?_parseLagMembership_eq_self_iff.1 hget
      exact hnot a hnone hself
    · intro i a hattached ifStack'
      rw [get?_parseLagMembership, hattached, Option.some_or]
    · intro i a hget hnone
      rcases of_get?_parseLagMembership hget with hattached | ⟨-, hover⟩
      · exact absurd (hnone.symm.trans hattached) (Option.some_ne_none a).symm
      · exact hover
    · rintro h i ⟨e, he, hover⟩ -
      exact mem_keys_parseLagMembership.2 (.inr ⟨e, he, h, hover⟩)
    · intro hone aggAttached' ifStack' hattached hstack i
      exact get?_parseLagMembership_of_perm hattached hstack fun _ ↦ hone i

/-- An aggregate with an active row over itself is read as its own member. -/
theorem member_of_itself :
    (parseLagMembership Dict.empty (Dict.ofList [("5.5", "1")])
        (Dict.ofList [("5", iftypeLag)])).get? "5" = some "5" ∧
      ¬ MembershipRight Dict.empty (Dict.ofList [("5.5", "1")])
        (Dict.ofList [("5", iftypeLag)]) := by
  have hget : (parseLagMembership Dict.empty (Dict.ofList [("5.5", "1")])
      (Dict.ofList [("5", iftypeLag)])).get? "5" = some "5" := by decide +kernel
  exact ⟨hget, fun hright ↦ (hright.own "5" "5" hget).1 rfl⟩

end Snmp
