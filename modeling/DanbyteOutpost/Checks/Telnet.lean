import DanbyteOutpost.Checks.Connections

/-!
# What `_strip_iac` leaves of a stream

A Telnet stream is visible bytes with commands between them: of two bytes, and of three where an
option is negotiated. `_strip_iac` leaves out three bytes for each command. A read may cut the
stream anywhere, also inside a command.

## The theorem

`stripIac_exact` is about a stream of items and all cuts of it: what is left of the bytes that
were read are the visible ones among them, wherever the cut is, exactly if no command of two bytes
has anything behind it (`CommandsLast`). The third byte the loop leaves out is otherwise the first
of what follows. What the banner is decoded to is right in the same streams, as far as the byte
that is lost does not continue a character of UTF-8.

The proof goes along the items, and by the place of the cut in the first of them
(`take_streamBytes_cons_add`). `stripIac_eats` is a stream whose greeting loses its first letter.
-/

namespace Checks

/-- What a stream is made of: a visible byte, a command (IAC and 0xf1 to 0xf9), or an option
negotiated (IAC, 0xfb to 0xfe, the option). -/
inductive TelnetItem
  /-- A byte below 255. -/
  | visible (b : ℕ) (hb : b < 0xff)
  /-- Two bytes. -/
  | command (c : ℕ) (low : 0xf1 ≤ c) (high : c ≤ 0xf9)
  /-- Three bytes. -/
  | option (verb opt : ℕ) (low : 0xfb ≤ verb) (high : verb ≤ 0xfe) (hopt : opt ≤ 0xff)

namespace TelnetItem

/-- The bytes it stands for. -/
def bytes : TelnetItem → List ℕ
  | visible b _ => [b]
  | command c _ _ => [0xff, c]
  | option verb opt _ _ _ => [0xff, verb, opt]

/-- What of it is to be seen. -/
def shown : TelnetItem → List ℕ
  | visible b _ => [b]
  | command .. | option .. => []

end TelnetItem

/-- The bytes of a stream. -/
def streamBytes (s : List TelnetItem) : List ℕ := s.flatMap TelnetItem.bytes

/-- The visible bytes among the first `k` bytes of a stream. -/
def shownBefore : List TelnetItem → ℕ → List ℕ
  | [], _ => []
  | i :: s, k =>
    if k < i.bytes.length then [] else i.shown ++ shownBefore s (k - i.bytes.length)

/-- No command of two bytes has anything behind it. -/
def CommandsLast (s : List TelnetItem) : Prop :=
  ∀ before c low high after, s = before ++ .command c low high :: after → after = []

/-- The visible bytes right behind commands of two bytes are among those. -/
def BehindCommands (p : ℕ → Prop) (s : List TelnetItem) : Prop :=
  ∀ before c low high b hb after,
    s = before ++ .command c low high :: .visible b hb :: after → p b

/-! ### The loop -/

theorem stripIac_visible {b : ℕ} (hb : b ≠ 0xff) (rest : List ℕ) :
    stripIac (b :: rest) = b :: stripIac rest := by
  rw [stripIac]
  · exact fun _ _ _ heq _ ↦ hb heq
  · exact fun heq ↦ hb heq

/-- An IAC takes two bytes with it, whatever they are. For an option that is right; a command has
one, and a subnegotiation more. -/
theorem stripIac_three (b c : ℕ) (rest : List ℕ) :
    stripIac (0xff :: b :: c :: rest) = stripIac rest := by
  rw [stripIac]

/-! ### Cuts -/

/-- The bytes of a stream are those of its items in order. -/
theorem streamBytes_cons (i : TelnetItem) (s : List TelnetItem) :
    streamBytes (i :: s) = i.bytes ++ streamBytes s := List.flatMap_cons ..

/-- Nothing is shown before the first byte. -/
theorem shownBefore_zero (s : List TelnetItem) : shownBefore s 0 = [] := by
  cases s with
  | nil => rfl
  | cons i s =>
    rw [shownBefore, if_pos]
    cases i <;> exact Nat.zero_lt_succ _

/-- An item inside the cut. -/
theorem shownBefore_cons_add (i : TelnetItem) (s : List TelnetItem) (k : ℕ) :
    shownBefore (i :: s) (i.bytes.length + k) = i.shown ++ shownBefore s k := by
  rw [shownBefore, if_neg (by omega), Nat.add_sub_cancel_left]

/-- A cut behind the first item is a cut in the rest. -/
theorem take_streamBytes_cons_add (i : TelnetItem) (s : List TelnetItem) (k : ℕ) :
    (streamBytes (i :: s)).take (i.bytes.length + k) = i.bytes ++ (streamBytes s).take k := by
  rw [streamBytes_cons, List.take_length_add_append]

/-- Of an item that the cut is in nothing is left. -/
theorem stripIac_take_of_lt {i : TelnetItem} {s : List TelnetItem} {k : ℕ}
    (h : k < i.bytes.length) : stripIac ((streamBytes (i :: s)).take k) = [] := by
  rw [streamBytes_cons, List.take_append_of_le_length h.le]
  cases i with
  | visible b hb =>
    obtain rfl : k = 0 := Nat.lt_one_iff.1 h
    rfl
  | command c =>
    have hk : k < 2 := h
    interval_cases k <;> rfl
  | option verb opt =>
    have hk : k < 3 := h
    interval_cases k <;> rfl

/-- An empty stream has no command before its end. -/
theorem commandsLast_nil : CommandsLast [] :=
  fun before _ _ _ _ heq ↦ absurd heq (List.append_ne_nil_of_right_ne_nil before (by simp)).symm

theorem CommandsLast.tail {i : TelnetItem} {s : List TelnetItem} (h : CommandsLast (i :: s)) :
    CommandsLast s :=
  fun before c low high after heq ↦ h (i :: before) c low high after (by rw [heq]; rfl)

/-- An item may come in front if it is no command, or nothing follows it. -/
theorem CommandsLast.cons {i : TelnetItem} {s : List TelnetItem}
    (hi : ∀ c low high, i = .command c low high → s = []) (hs : CommandsLast s) :
    CommandsLast (i :: s) := by
  intro before c low high after heq
  rcases before with - | ⟨j, before⟩
  · obtain ⟨hhead, rfl⟩ := List.cons.inj heq
    exact hi c low high hhead
  · exact hs before c low high after (List.cons.inj heq).2

/-- What is asked behind each command is asked in the rest, too. -/
theorem BehindCommands.tail {p : ℕ → Prop} {i : TelnetItem} {s : List TelnetItem}
    (h : BehindCommands p (i :: s)) : BehindCommands p s :=
  fun before c low high b hb after heq ↦
    h (i :: before) c low high b hb after (by rw [heq]; rfl)

/-! ### The bytes that are left -/

/-- Where nothing is behind a command of two bytes, the visible bytes are left. -/
theorem stripIac_take_of_commandsLast {s : List TelnetItem} (h : CommandsLast s) (k : ℕ) :
    stripIac ((streamBytes s).take k) = shownBefore s k := by
  induction s generalizing k with
  | nil =>
    rw [streamBytes, List.flatMap_nil, List.take_nil]
    rfl
  | cons i s ih =>
    rcases Nat.lt_or_ge k i.bytes.length with hlt | hge
    · rw [stripIac_take_of_lt hlt, shownBefore, if_pos hlt]
    obtain ⟨k, rfl⟩ := Nat.exists_eq_add_of_le hge
    rw [take_streamBytes_cons_add, shownBefore_cons_add, ← ih h.tail k]
    cases i with
    | visible b hb => exact stripIac_visible hb.ne _
    | option verb opt => exact stripIac_three verb opt _
    | command c low high =>
      -- it is the last item
      obtain rfl := h [] c low high s rfl
      rw [streamBytes, List.flatMap_nil, List.take_nil]
      rfl

/-- The byte behind a command of two goes with it. Cut there, or one byte on, the stream shows a
byte that is not left, or there is one left that is part of a command. -/
theorem exists_cut_behind (c : ℕ) (low : 0xf1 ≤ c) (high : c ≤ 0xf9) (j : TelnetItem)
    (s : List TelnetItem) : ∃ k b,
      ((∃ hb, j = .visible b hb) ∧ shownBefore (j :: s) k = [b] ∧
        stripIac (TelnetItem.bytes (.command c low high) ++ (streamBytes (j :: s)).take k) = []) ∨
      (0xf1 ≤ b ∧ shownBefore (j :: s) k = [] ∧
        stripIac (TelnetItem.bytes (.command c low high) ++ (streamBytes (j :: s)).take k) =
          [b]) := by
  have heaten : ∀ b rest, stripIac (TelnetItem.bytes (.command c low high) ++ b :: rest) =
      stripIac rest := fun b rest ↦ stripIac_three c b rest
  cases j with
  | visible b hb =>
    refine ⟨1, b, .inl ⟨⟨hb, rfl⟩, ?_, heaten b []⟩⟩
    exact (shownBefore_cons_add (.visible b hb) s 0).trans (congrArg (b :: ·) (shownBefore_zero s))
  | command c' low' high' =>
    refine ⟨2, c', .inr ⟨low', ?_, (heaten 0xff [c']).trans (stripIac_visible (by omega) [])⟩⟩
    exact (shownBefore_cons_add (.command c' low' high') s 0).trans (shownBefore_zero s)
  | option verb opt low' high' hopt =>
    refine ⟨2, verb, .inr ⟨by omega, ?_, (heaten 0xff [verb]).trans
      (stripIac_visible (by omega) [])⟩⟩
    exact if_pos (Nat.lt_succ_self 2)

/-- Where the visible bytes come out in a way that shows each byte of `p`, nothing is behind a
command of two bytes. The induction is on the stream, with the bytes already left in `left`. -/
theorem commandsLast_of_eq {γ : Type*} {f : List ℕ → γ} {p : ℕ → Prop}
    (hf : ∀ bytes b, p b → f (bytes ++ [b]) ≠ f bytes) (hp : ∀ b, 0xf1 ≤ b → p b)
    {s : List TelnetItem} (hbehind : BehindCommands p s) (left : List ℕ)
    (h : ∀ k, f (left ++ stripIac ((streamBytes s).take k)) = f (left ++ shownBefore s k)) :
    CommandsLast s := by
  induction s generalizing left with
  | nil => exact commandsLast_nil
  | cons i s ih =>
    have hstep : ∀ k, f (left ++ stripIac (i.bytes ++ (streamBytes s).take k)) =
        f (left ++ (i.shown ++ shownBefore s k)) := by
      intro k
      rw [← take_streamBytes_cons_add, ← shownBefore_cons_add]
      exact h _
    cases i with
    -- a visible byte is left in place, and joins what stands in front
    | visible b hb =>
      refine .cons nofun (ih hbehind.tail (left ++ [b]) fun k ↦ ?_)
      have hk := hstep k
      rw [TelnetItem.bytes, TelnetItem.shown, List.singleton_append, stripIac_visible hb.ne] at hk
      rw [List.append_assoc, List.append_assoc]
      exact hk
    -- an option is three bytes, and goes as a whole
    | option verb opt =>
      refine .cons nofun (ih hbehind.tail left fun k ↦ ?_)
      have hk := hstep k
      rw [TelnetItem.bytes, TelnetItem.shown, List.nil_append] at hk
      exact (congrArg (f ∘ (left ++ ·)) (stripIac_three verb opt _)).symm.trans hk
    -- a command of two bytes takes the next item's first byte with it, which a cut right there
    -- shows
    | command c low high =>
      rcases s with - | ⟨j, s⟩
      · exact .cons (fun _ _ _ _ ↦ rfl) commandsLast_nil
      obtain ⟨k, b, ⟨⟨hb, rfl⟩, hshown, hleft⟩ | ⟨hb, hshown, hleft⟩⟩ :=
        exists_cut_behind c low high j s
      · have hk := hstep k
        rw [hleft, List.append_nil] at hk
        refine absurd hk.symm ?_
        show f (left ++ shownBefore (.visible b hb :: s) k) ≠ f left
        rw [hshown]
        exact hf left b (hbehind [] c low high b hb s rfl)
      · have hk := hstep k
        rw [hleft] at hk
        refine absurd hk ?_
        show f (left ++ [b]) ≠ f (left ++ shownBefore (j :: s) k)
        rw [hshown, List.append_nil]
        exact hf left b (hp b hb)

/-! ### The banner -/

/-- A byte that continues no UTF-8 character shows in what is decoded. -/
theorem decoded_append_singleton_ne (bytes : List ℕ) {b : ℕ} (hb : b < 0x80 ∨ 0xbf < b) :
    decoded (bytes ++ [b]) ≠ decoded bytes := by
  intro heq
  have hlength : (PyText.decodeUtf8 0 0 0 0 (bytes ++ [b])).length =
      (PyText.decodeUtf8 0 0 0 0 bytes).length + 1 :=
    PyText.length_decodeUtf8_append_singleton (fun h ↦ absurd rfl h) bytes hb
  have hlist := congrArg (List.length ∘ String.toList) heq
  simp only [decoded, Function.comp_apply, String.toList_ofList] at hlist
  omega

/-- **`_strip_iac`**: wherever a stream is cut, the bytes that are decoded are the visible ones in
front of the cut, exactly if no command of two bytes has anything behind it. What is decoded is then
right too, and is right in no other stream, unless behind such a command a byte goes that continues
a UTF-8 character.

The loop takes three bytes for every command, and those of two bytes take one more of the text with
them. -/
theorem stripIac_exact (s : List TelnetItem) :
    ((∀ k, stripIac ((streamBytes s).take k) = shownBefore s k) ↔ CommandsLast s) ∧
      (CommandsLast s →
        ∀ k, decoded (stripIac ((streamBytes s).take k)) = decoded (shownBefore s k)) ∧
      (BehindCommands (fun b ↦ b < 0x80 ∨ 0xbf < b) s →
        (∀ k, decoded (stripIac ((streamBytes s).take k)) = decoded (shownBefore s k)) →
          CommandsLast s) := by
  refine ⟨⟨fun h ↦ ?_, stripIac_take_of_commandsLast⟩, fun h k ↦ ?_, fun hbehind h ↦ ?_⟩
  · refine commandsLast_of_eq (f := id) (p := fun _ ↦ True) (fun bytes b _ heq ↦ ?_)
      (fun _ _ ↦ trivial) (fun _ _ _ _ _ _ _ _ ↦ trivial) [] h
    exact absurd (congrArg List.length heq) (by simp)
  · rw [stripIac_take_of_commandsLast h k]
  · exact commandsLast_of_eq (fun bytes b hb ↦ decoded_append_singleton_ne bytes hb)
      (fun b hb ↦ .inr (by omega)) hbehind [] h

/-- A server sends NOP before its prompt. -/
theorem stripIac_eats :
    let s : List TelnetItem := [.command 0xf1 (by decide) (by decide), .visible 0x6c (by decide),
      .visible 0x6f (by decide), .visible 0x67 (by decide), .visible 0x69 (by decide),
      .visible 0x6e (by decide), .visible 0x3a (by decide)]
    decoded (stripIac ((streamBytes s).take 512)) ≠ decoded (shownBefore s 512) ∧
      decoded (stripIac ((streamBytes s).take 512)) = "ogin:" ∧
        decoded (shownBefore s 512) = "login:" := by
  decide +kernel

end Checks
