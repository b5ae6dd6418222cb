import DanbyteOutpost.Fast.Probes

/-!
# A refresh that raises

`refresh` writes as it reads: the cadences first, then the entries, check by check, and `run()` goes
on where it raises. What it wrote before the fault stays, so a refresh that raises leaves the lane
as it was exactly when all it read up to the fault was so before (`refresh_unchanged_iff`).

## Up to the fault

A payload is read from its front. What is read before the fault is written as it is read
(`upToFault`), and what stands behind it is never seen. So whether a refresh that raises has
changed anything is a question about that part of the payload alone: does it say of every check in
it, and of the cadences, what is so already (`SaysNothingNew`)?

* `refreshOne_applied`, `refreshChecks_applied`: what the loop has written when it stops.
* `refreshChecks_unchanged_iff`: it has written nothing new exactly if all it read was so before.
* `half_applied`: a payload with a good check in front of a bad one.
-/

namespace FastLane

/-! ### Refreshing one entry again and again -/

/-- `_Entry.refresh` assigns the check in any case, and the interval where it can be read. It is
this order that lets a malformed check through. -/
theorem Entry.refresh_eq (e : Entry) (check : FastCheck) :
    e.refresh check = ({ e with check := check, interval := (intervalOf check).getD e.interval },
      (intervalOf check).isSome) := by
  rw [Entry.refresh]
  rcases intervalOf check with - | interval <;> rfl

/-- The last check stays, and the last interval that could be read. -/
theorem foldl_refresh (checks : List FastCheck) (e : Entry) :
    checks.foldl (fun e check ↦ (e.refresh check).1) e =
      { e with
        check := checks.getLast?.getD e.check
        interval := (checks.filterMap intervalOf).getLast?.getD e.interval } := by
  induction checks generalizing e with
  | nil => rfl
  | cons check checks ih =>
    rw [List.foldl_cons, ih, Entry.refresh_eq, List.getLast?_cons, List.filterMap_cons]
    rcases intervalOf check with - | interval
    · rfl
    · rw [List.getLast?_cons]
      rfl

/-- An entry is the same after it was refreshed by some checks exactly if the last of them is the
one it has, and the last interval among them that could be read is its own. -/
theorem foldl_refresh_eq_self_iff {checks : List FastCheck} {e : Entry} :
    checks.foldl (fun e check ↦ (e.refresh check).1) e = e ↔
      (∀ check ∈ checks.getLast?, check = e.check) ∧
        ∀ interval ∈ (checks.filterMap intervalOf).getLast?, interval = e.interval := by
  have hgetD : ∀ {α : Type} (o : Option α) (a : α), o.getD a = a ↔ ∀ b ∈ o, b = a := by
    intro α o a
    cases o <;> simp
  rw [foldl_refresh, ← hgetD, ← hgetD]
  obtain ⟨check, due, interval, lastClass, running⟩ := e
  simp only [Entry.mk.injEq, true_and, and_true]

/-! ### Payloads -/

/-- `int(check.get("interval_ms") or 1000)` can be read, or the check is passed over before it. -/
def wellFormed : Option FastCheck → Bool
  | none => false
  | some check => check.stateId = "" || (intervalOf check).isSome

/-- What the loop over the checks reads: all up to the first malformed one. -/
def upToFault : List (Option FastCheck) → List (Option FastCheck)
  | [] => []
  | item :: items => if wellFormed item then item :: upToFault items else [item]

/-- The checks of a payload that have a state id. -/
def named (items : List (Option FastCheck)) : List FastCheck :=
  (items.filterMap id).filter fun check ↦ check.stateId ≠ ""

/-- What a payload says of a check. -/
def saidOf (sid : String) (items : List (Option FastCheck)) : List FastCheck :=
  (named items).filter fun check ↦ check.stateId = sid

theorem named_append (items items' : List (Option FastCheck)) :
    named (items ++ items') = named items ++ named items' := by
  rw [named, List.filterMap_append, List.filter_append]
  rfl

theorem saidOf_append (sid : String) (items items' : List (Option FastCheck)) :
    saidOf sid (items ++ items') = saidOf sid items ++ saidOf sid items' := by
  rw [saidOf, named_append, List.filter_append]
  rfl

/-- A check without a `state_id` names none. -/
theorem named_of_empty {check : FastCheck} (h : check.stateId = "") : named [some check] = [] :=
  List.filter_cons_of_neg (by simp [h])

theorem named_of_ne_empty {check : FastCheck} (h : check.stateId ≠ "") :
    named [some check] = [check] :=
  List.filter_cons_of_pos (by simp [h])

theorem saidOf_self {check : FastCheck} (h : check.stateId ≠ "") :
    saidOf check.stateId [some check] = [check] := by
  rw [saidOf, named_of_ne_empty h]
  exact List.filter_cons_of_pos (by simp)

theorem saidOf_of_ne {check : FastCheck} {sid : String} (h : check.stateId ≠ sid) :
    saidOf sid [some check] = [] := by
  rw [saidOf]
  refine List.filter_eq_nil_iff.2 fun check' hcheck' ↦ ?_
  obtain rfl := List.mem_singleton.1 (List.mem_of_mem_filter hcheck')
  simp [h]

namespace Runner

variable {r : Runner} {created : String → Binary64}

/-- The checks whose entries could be made have one. -/
def ListsAll (r : Runner) (items : List (Option FastCheck)) : Prop :=
  ∀ check ∈ named items, (intervalOf check).isSome = true → r.listed check.stateId = true

/-- The payload's checks are listed, and say of each entry what it has already. -/
structure AlreadySo (r : Runner) (items : List (Option FastCheck)) : Prop where
  /-- Nothing in it is new. -/
  listed : r.ListsAll items
  /-- What it says last of a listed check is what the entry has. -/
  check : ∀ sid id, r.entries.get? sid = some id →
    ∀ check ∈ (saidOf sid items).getLast?, check = (r.heap id).check
  /-- And so is the last interval it says that can be read. -/
  interval : ∀ sid id, r.entries.get? sid = some id →
    ∀ interval ∈ ((saidOf sid items).filterMap intervalOf).getLast?,
      interval = (r.heap id).interval

/-- Everything the payload says up to its fault is so already. -/
def SaysNothingNew (work : Work) (r : Runner) : Prop :=
  ∀ n, (work.refreshSeconds.orElse (.int r.refreshSeconds)).pyInt = some n →
    n = r.refreshSeconds ∧
    ∀ m, (work.flushSeconds.orElse (.int r.flushSeconds)).pyInt = some m →
      m = r.flushSeconds ∧
      ∀ items, work.checks = some items → r.AlreadySo (upToFault items)

/-- A piece of the payload cannot be read. -/
def Malformed (work : Work) (r : Runner) : Prop :=
  (work.refreshSeconds.orElse (.int r.refreshSeconds)).pyInt = none ∨
    (work.flushSeconds.orElse (.int r.flushSeconds)).pyInt = none ∨
    ∀ items, work.checks = some items → ∃ item ∈ items, wellFormed item = false

/-- The work list, every entry, the samples and the cadences are the same. -/
structure Unchanged (r r' : Runner) : Prop where
  /-- The same state ids, with the same objects. -/
  entries : r'.entries = r.entries
  /-- Every object as it was: check, interval, schedule, class and flag. -/
  entry : ∀ sid id, r.entries.get? sid = some id → r'.heap id = r.heap id
  /-- The samples that wait. -/
  buffer : r'.buffer = r.buffer
  /-- The cadence of the refreshes. -/
  refreshSeconds : r'.refreshSeconds = r.refreshSeconds
  /-- The cadence of the flushes. -/
  flushSeconds : r'.flushSeconds = r.flushSeconds

/-! ### The loop over the checks -/

/-- What one check of the payload does: nothing, a new entry, or a listed entry is refreshed. -/
theorem refreshOne_cases (created : String → Binary64) (item : Option FastCheck) (r : Runner)
    (keep : List String) :
    ((refreshOne created item r keep).2 = none ↔ wellFormed item = false) ∧
      ((named [item] = [] ∧ (refreshOne created item r keep).1 = r) ∨
      ∃ check, item = some check ∧ check.stateId ≠ "" ∧
        ((r.entries.get? check.stateId = none ∧ intervalOf check = none ∧
          (refreshOne created item r keep).1 = r) ∨
        (∃ e, r.entries.get? check.stateId = none ∧
          Entry.new check (created check.stateId) = some e ∧
          (refreshOne created item r keep).1 = r.addEntry check.stateId e) ∨
        ∃ id, r.entries.get? check.stateId = some id ∧
          (refreshOne created item r keep).1 =
            r.setEntry id ((r.heap id).refresh check).1)) := by
  rcases item with - | check
  · exact ⟨iff_of_true rfl rfl, .inl ⟨rfl, rfl⟩⟩
  rw [refreshOne, wellFormed]
  dsimp only
  by_cases hempty : check.stateId = ""
  · rw [if_pos hempty]
    exact ⟨by simp [hempty], .inl ⟨named_of_empty hempty, rfl⟩⟩
  rw [if_neg hempty]
  rcases hget : r.entries.get? check.stateId with - | id
  · dsimp only
    rcases hinterval : intervalOf check with - | interval
    · rw [Entry.new, hinterval]
      exact ⟨by simp [hempty], .inr ⟨check, rfl, hempty, .inl ⟨hget, hinterval, rfl⟩⟩⟩
    · have hnew : Entry.new check (created check.stateId) =
          some ⟨check, created check.stateId, interval, none, false⟩ := by
        rw [Entry.new, hinterval]
        rfl
      rw [hnew]
      exact ⟨by simp, .inr ⟨check, rfl, hempty, .inr (.inl ⟨_, hget, hnew, rfl⟩)⟩⟩
  · refine ⟨?_, .inr ⟨check, rfl, hempty, .inr (.inr ⟨id, hget, rfl⟩)⟩⟩
    simp only [Entry.refresh_eq]
    rcases intervalOf check with - | interval <;> simp [hempty]

/-- The loop leaves the cadences alone. -/
theorem refreshChecks_cadence (created : String → Binary64) (items : List (Option FastCheck))
    (r : Runner)
    (keep : List String) :
    (refreshChecks created items r keep).1.refreshSeconds = r.refreshSeconds ∧
      (refreshChecks created items r keep).1.flushSeconds = r.flushSeconds := by
  induction items generalizing r keep with
  | nil => exact ⟨rfl, rfl⟩
  | cons item items ih =>
    have hone : (refreshOne created item r keep).1.refreshSeconds = r.refreshSeconds ∧
        (refreshOne created item r keep).1.flushSeconds = r.flushSeconds := by
      obtain ⟨-, ⟨-, h⟩ | ⟨check, -, -, ⟨-, -, h⟩ | ⟨e, -, -, h⟩ | ⟨id, -, h⟩⟩⟩ :=
        refreshOne_cases created item r keep <;> rw [h] <;> exact ⟨rfl, rfl⟩
    rw [refreshChecks]
    rcases hout : refreshOne created item r keep with ⟨r', - | keep'⟩ <;> rw [hout] at hone
    · exact hone
    · exact ⟨(ih r' keep').1.trans hone.1, (ih r' keep').2.trans hone.2⟩

/-- The loop raises exactly if the payload has a malformed check, wherever it stands. -/
theorem refreshChecks_eq_none_iff (created : String → Binary64) (items : List (Option FastCheck))
    (r : Runner) (keep : List String) :
    (refreshChecks created items r keep).2 = none ↔ ∃ item ∈ items, wellFormed item = false := by
  induction items generalizing r keep with
  | nil => simp [refreshChecks]
  | cons item items ih =>
    have hone := (refreshOne_cases created item r keep).1
    rw [refreshChecks, List.exists_mem_cons_iff, ← hone]
    rcases refreshOne created item r keep with ⟨r', - | keep'⟩
    · exact iff_of_true rfl (.inl rfl)
    · dsimp only
      rw [ih, or_iff_right (by simp)]

/-- Two payloads name listed checks only if each does. -/
theorem listsAll_append {items items' : List (Option FastCheck)} :
    r.ListsAll (items ++ items') ↔ r.ListsAll items ∧ r.ListsAll items' := by
  rw [ListsAll, named_append, List.forall_mem_append]
  rfl

/-- Which checks are listed is all that matters to it. -/
theorem ListsAll.congr {r' : Runner} (h : r'.entries = r.entries)
    {items : List (Option FastCheck)} : r'.ListsAll items ↔ r.ListsAll items := by
  rw [ListsAll, ListsAll]
  simp only [listed, h]

/-- The entries of `r'` are those of `r` refreshed with what the items say, or there is a new
one. -/
structure Applied (r r' : Runner) (items : List (Option FastCheck)) : Prop where
  /-- With nothing new in it, each entry has been refreshed with each item that names it, in
  order. -/
  refreshed : r.ListsAll items → r'.entries = r.entries ∧
    ∀ sid id, r.entries.get? sid = some id →
      r'.heap id = (saidOf sid items).foldl (fun e check ↦ (e.refresh check).1) (r.heap id)
  /-- And otherwise the work list has grown. -/
  added : ¬ r.ListsAll items → ∃ sid, r.entries.get? sid = none ∧ r'.entries.get? sid ≠ none

/-- Two parts of a payload are applied one after the other. What the first part lists is still
listed behind the second, since the entries that are dropped go later. -/
theorem Applied.trans {r' r'' : Runner} {items items' : List (Option FastCheck)}
    (h : Applied r r' items) (h' : Applied r' r'' items')
    (hold : ∀ sid, r'.entries.get? sid ≠ none → r''.entries.get? sid ≠ none) :
    Applied r r'' (items ++ items') where
  refreshed := by
    intro hall
    obtain ⟨hall, hall'⟩ := listsAll_append.1 hall
    obtain ⟨hentries, hheap⟩ := h.refreshed hall
    obtain ⟨hentries', hheap'⟩ := h'.refreshed ((ListsAll.congr hentries).2 hall')
    refine ⟨hentries'.trans hentries, fun sid id hget ↦ ?_⟩
    rw [saidOf_append, List.foldl_append, ← hheap sid id hget]
    exact hheap' sid id (by rw [hentries, hget])
  added := by
    intro hnot
    by_cases hall : r.ListsAll items
    · have hentries := (h.refreshed hall).1
      obtain ⟨sid, hnone, hsome⟩ := h'.added fun hall' ↦
        hnot (listsAll_append.2 ⟨hall, (ListsAll.congr hentries).1 hall'⟩)
      exact ⟨sid, by rw [← hentries, hnone], hsome⟩
    · obtain ⟨sid, hnone, hsome⟩ := h.added hall
      exact ⟨sid, hnone, hold sid hsome⟩

/-- A part that says nothing of any listed check, and names no other, applies to nothing. -/
theorem applied_self {items : List (Option FastCheck)} (hall : r.ListsAll items)
    (h : ∀ sid, r.listed sid = true → saidOf sid items = []) : Applied r r items where
  refreshed := fun _ ↦ ⟨rfl, fun sid id hget ↦ by rw [h sid (listed_of_get? hget)]; rfl⟩
  added := fun hnot ↦ absurd hall hnot

/-- One check of the payload is applied: its entry is refreshed with it if there is one, and added
if there is none. -/
theorem refreshOne_applied (created : String → Binary64) (hcoh : r.Coherent)
    (item : Option FastCheck)
    (keep : List String) :
    Applied r (refreshOne created item r keep).1 [item] := by
  obtain ⟨-, ⟨hnamed, hr⟩ | ⟨check, rfl, hne, h⟩⟩ := refreshOne_cases created item r keep
  · rw [hr]
    refine applied_self ?_ fun sid _ ↦ ?_
    · rw [ListsAll, hnamed]
      exact fun _ h ↦ absurd h List.not_mem_nil
    · rw [saidOf, hnamed]
      rfl
  have hone : r.ListsAll [some check] ↔
      ((intervalOf check).isSome = true → r.listed check.stateId = true) := by
    rw [ListsAll, named_of_ne_empty hne, List.forall_mem_singleton]
  -- the check has no interval, and no entry; or it gets a new entry; or its entry is written
  rcases h with ⟨hnone, hinterval, hr⟩ | ⟨e, hnone, hnew, hr⟩ | ⟨id, hget, hr⟩
  · rw [hr]
    refine applied_self (hone.2 fun hsome ↦ ?_) fun sid hlisted ↦ saidOf_of_ne ?_
    · rw [hinterval] at hsome
      cases hsome
    · rintro rfl
      rw [listed_eq_false.2 hnone] at hlisted
      cases hlisted
  · rw [hr]
    refine ⟨fun hall ↦ ?_, fun _ ↦ ⟨check.stateId, hnone, by simp⟩⟩
    obtain ⟨interval, hinterval, -⟩ := Option.map_eq_some_iff.1 hnew
    have hlisted := hone.1 hall (by rw [hinterval]; rfl)
    rw [listed_eq_false.2 hnone] at hlisted
    cases hlisted
  · rw [hr]
    refine ⟨fun _ ↦ ⟨rfl, fun sid id' hget' ↦ ?_⟩, fun hnot ↦ ?_⟩
    · by_cases hsid : check.stateId = sid
      · subst hsid
        obtain rfl := Option.some.inj (hget.symm.trans hget')
        rw [setEntry_heap_self, saidOf_self hne]
        rfl
      · have hid : id' ≠ id := by
          rintro rfl
          exact hsid ((hcoh _ _ hget).2.symm.trans (hcoh _ _ hget').2)
        rw [setEntry_heap_ne _ _ hid, saidOf_of_ne hsid]
        rfl
    · exact absurd (hone.2 fun _ ↦ listed_of_get? hget) hnot

/-- The loop applies what it reads, all up to the fault. -/
theorem refreshChecks_applied (created : String → Binary64) (hcoh : r.Coherent)
    (items : List (Option FastCheck)) (keep : List String) :
    Applied r (refreshChecks created items r keep).1 (upToFault items) := by
  induction items generalizing r keep with
  | nil => exact applied_self (fun _ h ↦ absurd h List.not_mem_nil) fun _ _ ↦ rfl
  | cons item items ih =>
    have happlied := refreshOne_applied created hcoh item keep
    have hfault := (refreshOne_cases created item r keep).1
    obtain ⟨-, hcoh', -⟩ := refreshOne_spec created item r keep
    rw [refreshChecks, upToFault]
    rcases hone : refreshOne created item r keep with ⟨r', - | keep'⟩ <;>
      rw [hone] at happlied hfault hcoh'
    · rw [if_neg (by simp [hfault.1 rfl])]
      exact happlied
    · have hwell : wellFormed item = true := by
        rw [← Bool.not_eq_false, ← hfault]
        exact Option.some_ne_none keep'
      rw [if_pos hwell]
      obtain ⟨hgrows, -⟩ := refreshChecks_spec created items r' keep'
      refine happlied.trans (ih (hcoh' hcoh) keep') fun sid hsome ↦ ?_
      obtain ⟨id, hid⟩ := Option.ne_none_iff_exists'.1 hsome
      dsimp only
      rw [hgrows.old hid]
      exact Option.some_ne_none id

/-- The loop leaves everything as it is exactly if what it gets to is so already. -/
theorem refreshChecks_unchanged_iff (created : String → Binary64) (hcoh : r.Coherent)
    (items : List (Option FastCheck)) (keep : List String) :
    Unchanged r (refreshChecks created items r keep).1 ↔ r.AlreadySo (upToFault items) := by
  obtain ⟨hrefreshed, hadded⟩ := refreshChecks_applied created hcoh items keep
  have hframe := (refreshChecks_spec created items r keep).1.frame
  by_cases hall : r.ListsAll (upToFault items)
  · obtain ⟨hentries, hheap⟩ := hrefreshed hall
    constructor
    · intro h
      have hfold := fun sid id hget ↦
        foldl_refresh_eq_self_iff.1 ((hheap sid id hget).symm.trans (h.entry sid id hget))
      exact ⟨hall, fun sid id hget ↦ (hfold sid id hget).1, fun sid id hget ↦ (hfold sid id hget).2⟩
    · intro h
      obtain ⟨hrefresh, hflush⟩ := refreshChecks_cadence created items r keep
      refine ⟨hentries, fun sid id hget ↦ ?_, by rw [hframe], hrefresh, hflush⟩
      rw [hheap sid id hget]
      exact foldl_refresh_eq_self_iff.2 ⟨h.check sid id hget, h.interval sid id hget⟩
  · refine iff_of_false (fun h ↦ ?_) fun h ↦ hall h.listed
    obtain ⟨sid, hnone, hsome⟩ := hadded hall
    rw [h.entries] at hsome
    exact hsome hnone

/-! ### A whole refresh -/

/-- A refresh raises exactly if a piece of its payload is malformed. -/
theorem refresh_raises_iff {work : Work} :
    (r.refresh created work).2 = false ↔ Malformed work r := by
  rw [refresh, Malformed]
  rcases (work.refreshSeconds.orElse (.int r.refreshSeconds)).pyInt with - | n
  · exact iff_of_true rfl (.inl rfl)
  rw [or_iff_right (by simp)]
  dsimp only
  rcases (work.flushSeconds.orElse (.int r.flushSeconds)).pyInt with - | m
  · exact iff_of_true rfl (.inl rfl)
  rw [or_iff_right (by simp)]
  dsimp only
  rcases work.checks with - | items
  · exact iff_of_true rfl (by simp)
  have hnone := refreshChecks_eq_none_iff created items
    { r with refreshSeconds := n, flushSeconds := m } []
  simp only [Option.some.injEq, forall_eq', ← hnone]
  rcases refreshChecks created items { r with refreshSeconds := n, flushSeconds := m } []
    with ⟨r', - | keep⟩
  · exact iff_of_true rfl rfl
  · simp

/-- And then it leaves everything as it is exactly if the payload says nothing new up to that
piece. -/
theorem refresh_unchanged_of_malformed_iff (hcoh : r.Coherent) {work : Work}
    (h : Malformed work r) :
    Unchanged r (r.refresh created work).1 ↔ SaysNothingNew work r := by
  rw [Malformed] at h
  rw [refresh, SaysNothingNew]
  -- the first cadence cannot be read, so nothing is written
  rcases hrefresh : (work.refreshSeconds.orElse (.int r.refreshSeconds)).pyInt with - | n
  · exact iff_of_true ⟨rfl, fun _ _ _ ↦ rfl, rfl, rfl, rfl⟩ (by simp)
  simp only [Option.some.injEq, forall_eq']
  -- the second one cannot
  rcases hflush : (work.flushSeconds.orElse (.int r.flushSeconds)).pyInt with - | m
  · simp only [reduceCtorEq, false_imp_iff, forall_const, and_true]
    exact ⟨fun hsame ↦ hsame.refreshSeconds, fun hn ↦ ⟨rfl, fun _ _ _ ↦ rfl, rfl, hn, rfl⟩⟩
  simp only [Option.some.injEq, forall_eq']
  -- the list of checks cannot
  rcases hchecks : work.checks with - | items
  · simp only [reduceCtorEq, false_imp_iff, forall_const, and_true]
    exact ⟨fun hsame ↦ ⟨hsame.refreshSeconds, hsame.flushSeconds⟩,
      fun hnm ↦ ⟨rfl, fun _ _ _ ↦ rfl, rfl, hnm.1, hnm.2⟩⟩
  -- what is left is a check that cannot, at which the loop ends
  have hfault : ∃ item ∈ items, wellFormed item = false := by
    rcases h with h | h | h
    · rw [hrefresh] at h
      cases h
    · rw [hflush] at h
      cases h
    · exact h items hchecks
  simp only [Option.some.injEq, forall_eq']
  set r₁ : Runner := { r with refreshSeconds := n, flushSeconds := m } with hr₁
  have hloop := refreshChecks_unchanged_iff created (r := r₁) hcoh items []
  obtain ⟨hn, hm⟩ := refreshChecks_cadence created items r₁ []
  have hnone := (refreshChecks_eq_none_iff created items r₁ []).2 hfault
  rcases hout : refreshChecks created items r₁ [] with ⟨r', - | keep⟩
  swap
  · rw [hout] at hnone
    cases hnone
  rw [hout] at hloop hn hm
  have halready : r₁.AlreadySo (upToFault items) ↔ r.AlreadySo (upToFault items) :=
    ⟨fun hso ↦ ⟨hso.listed, hso.check, hso.interval⟩,
      fun hso ↦ ⟨hso.listed, hso.check, hso.interval⟩⟩
  rw [← halready, ← hloop]
  constructor
  · intro hsame
    exact ⟨hn.symm.trans hsame.refreshSeconds, hm.symm.trans hsame.flushSeconds,
      hsame.entries, hsame.entry, hsame.buffer, hn, hm⟩
  · rintro ⟨htold, htold', hsame⟩
    exact ⟨hsame.entries, hsame.entry, hsame.buffer, hn.trans htold, hm.trans htold'⟩

/-- A refresh raises: its fetch does, or its payload cannot be read. -/
def raises (created : String → Binary64) (work : Option Work) (r : Runner) : Prop :=
  ∀ w ∈ work, (r.refresh created w).2 = false

/-- In every state of every run, a refresh that raises changes nothing exactly if what it was told
up to the fault was so already.

The settings are written first, then the entries one by one, and only behind the loop are those
dropped that were not named. A fault in between leaves what was written so far, and `Entry.refresh`
has written the check before it converts the interval. -/
theorem refresh_unchanged_iff {flushSeconds : ℤ} {es : List Event}
    (hrun : lane.exec (Runner.init flushSeconds) es = some r) (created : String → Binary64)
    (work : Option Work) :
    (r.raises created work → Unchanged r (r.afterFetch work created)) ↔
      ∀ w ∈ work, Malformed w r → SaysNothingNew w r := by
  have hcoh := (sound_run hrun).coherent
  cases work with
  | none => exact iff_of_true (fun _ ↦ ⟨rfl, fun _ _ _ ↦ rfl, rfl, rfl, rfl⟩) (by simp)
  | some w =>
    simp only [raises, Option.mem_def, Option.some.injEq, forall_eq', refresh_raises_iff]
    exact forall_congr' fun h ↦ refresh_unchanged_of_malformed_iff hcoh h

/-- A payload whose first piece cannot be read. -/
theorem unchanged_of_unreadable :
    ∃ r, lane.exec (Runner.init 15) [.fetched (some oneCheck) (fun _ ↦ 0) 0 0] = some r ∧
      Unchanged r (r.afterFetch (some { noCheck with refreshSeconds := .str "soon" })
        fun _ ↦ 1) := by
  obtain ⟨r, hrun⟩ : ∃ r, lane.exec (Runner.init 15)
      [.fetched (some oneCheck) (fun _ ↦ 0) 0 0] = some r := ⟨_, rfl⟩
  refine ⟨r, hrun, (refresh_unchanged_iff hrun _ _).2 ?_ ?_⟩
  · rintro w hw - n hn
    cases hw
    cases hn
  · rintro w hw
    cases hw
    rfl

/-- A check is taken up before the fault, and the one that is no longer listed stays. -/
theorem half_applied :
    ∃ r, lane.exec (Runner.init 15) [.fetched (some oneCheck) (fun _ ↦ 0) 0 0] = some r ∧
      let work : Work := { oneCheck with
        checks := some [some { stateId := "8", intervalMs := .null, kind := .str "tcp" },
          some { stateId := "9", intervalMs := .str "soon", kind := .str "tcp" }] }
      r.raises (fun _ ↦ 1) (some work) ∧
        (r.afterFetch (some work) fun _ ↦ 1).entries.items = [("7", 0), ("8", 1)] ∧
        ¬ Unchanged r (r.afterFetch (some work) fun _ ↦ 1) := by
  obtain ⟨r, hrun, hraises, hold, hnew⟩ :
      ∃ r ∈ lane.exec (Runner.init 15) [.fetched (some oneCheck) (fun _ ↦ 0) 0 0],
        let work : Work := { oneCheck with
          checks := some [some { stateId := "8", intervalMs := .null, kind := .str "tcp" },
            some { stateId := "9", intervalMs := .str "soon", kind := .str "tcp" }] }
        (r.refresh (fun _ ↦ 1) work).2 = false ∧ r.entries.items = [("7", 0)] ∧
          (r.afterFetch (some work) fun _ ↦ 1).entries.items = [("7", 0), ("8", 1)] := by
    decide +kernel
  refine ⟨r, hrun, fun w hw ↦ ?_, hnew, fun h ↦ ?_⟩
  · cases hw
    exact hraises
  · rw [h.entries, hold] at hnew
    exact absurd hnew (by decide)

end Runner

end FastLane
