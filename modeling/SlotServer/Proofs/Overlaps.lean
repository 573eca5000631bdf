import SlotServer.Proofs.Layout

/-!
# Segments that overlap

When one window into a region overlaps another, told by their bytes. Windows that have bytes overlap where they share
one. A window without bytes shares none, but it is taken to overlap every window that it lies strictly inside of.

- `Segment.Shares`, `Segment.Pierces`: a shared byte, and an empty window strictly inside another one;
- `Segment.Meets`: the comparison of ends by which overlaps are told (`overlaps_eq`, `meets_iff`);
- `Segment.Parts`: what a window is cut into, and `meets_parts`: what overlaps the whole overlaps a part;
- `Segment.overlaps_split`: overlaps and parts, for all windows whose ends their words can hold.
-/

namespace SlotServer.Segment

variable {s t a b : Segment} {head : Nat}

/-- The end of the segment is a number that its word can hold. -/
def Ends (s : Segment) : Prop := s.offset + s.length < wordCount

instance (s : Segment) : Decidable s.Ends := inferInstanceAs (Decidable (_ < _))

/-- The segments share a byte of a region. -/
def Shares (s t : Segment) : Prop := s.bufIndex = t.bufIndex ∧ ∃ byte, s.Holds byte ∧ t.Holds byte

/-- The segment has no bytes, and lies in the region of the other one strictly between its ends. -/
def Pierces (s t : Segment) : Prop :=
  s.bufIndex = t.bufIndex ∧ s.length = 0 ∧ t.offset < s.offset ∧ s.offset < t.offset + t.length

/-- The segments lie in the same region, and each begins before the other one ends. -/
def Meets (s t : Segment) : Prop :=
  s.bufIndex = t.bufIndex ∧ s.offset < t.offset + t.length ∧ t.offset < s.offset + s.length

instance (s t : Segment) : Decidable (s.Meets t) := inferInstanceAs (Decidable (_ ∧ _))

theorem stop_eq (h : s.Ends) : s.stop = .ok (s.offset + s.length) := if_pos h

/-- Where the ends are within their words, overlaps are told by comparing them. -/
theorem overlaps_eq (hs : s.Ends) (ht : t.Ends) : s.overlaps t = .ok (decide (s.Meets t)) := by
  unfold overlaps Meets
  rw [stop_eq hs, stop_eq ht]
  by_cases hregion : s.bufIndex = t.bufIndex
  · rw [if_neg (not_not_intro hregion)]
    show (if t.offset + t.length ≤ s.offset then _ else _ : Except Fault Bool) = _
    by_cases hbefore : s.offset < t.offset + t.length
    · rw [if_neg (Nat.not_le.2 hbefore)]
      exact congrArg Except.ok (decide_eq_decide.2 ⟨fun hafter => ⟨hregion, hbefore, hafter⟩, fun h => h.2.2⟩)
    · rw [if_pos (Nat.not_lt.1 hbefore)]
      exact congrArg Except.ok (decide_eq_false fun h => hbefore h.2.1).symm
  · rw [if_pos hregion]
    exact congrArg Except.ok (decide_eq_false fun h => hregion h.1).symm

theorem Meets.symm (h : s.Meets t) : t.Meets s := ⟨h.1.symm, h.2.2, h.2.1⟩

theorem meets_comm : s.Meets t ↔ t.Meets s := ⟨Meets.symm, Meets.symm⟩

theorem Shares.meets (h : s.Shares t) : s.Meets t := by
  obtain ⟨hregion, byte, ⟨hfrom, hto⟩, hfrom', hto'⟩ := h
  exact ⟨hregion, Nat.lt_of_le_of_lt hfrom hto', Nat.lt_of_le_of_lt hfrom' hto⟩

theorem Pierces.meets (h : s.Pierces t) : s.Meets t := by
  obtain ⟨hregion, hempty, hafter, hbefore⟩ := h
  exact ⟨hregion, hbefore, by rw [hempty]; exact hafter⟩

/-- Segments that have bytes meet where they share one: the later of their first bytes. -/
theorem Meets.shares (h : s.Meets t) (hs : 0 < s.length) (ht : 0 < t.length) : s.Shares t := by
  obtain ⟨hregion, hbefore, hafter⟩ := h
  refine ⟨hregion, max s.offset t.offset, ⟨Nat.le_max_left .., ?_⟩, Nat.le_max_right .., ?_⟩
  · exact Nat.max_lt.2 ⟨Nat.lt_add_of_pos_right hs, hafter⟩
  · exact Nat.max_lt.2 ⟨hbefore, Nat.lt_add_of_pos_right ht⟩

/-- A segment without bytes meets what it lies strictly inside of. -/
theorem Meets.pierces (h : s.Meets t) (hs : s.length = 0) : s.Pierces t := by
  obtain ⟨hregion, hbefore, hafter⟩ := h
  exact ⟨hregion, hs, by rw [hs] at hafter; exact hafter, hbefore⟩

/-- Segments meet where they share a byte, or where one of them is empty and strictly inside the other. -/
theorem meets_iff : s.Meets t ↔ s.Shares t ∨ s.Pierces t ∨ t.Pierces s := by
  constructor
  · intro h
    rcases Nat.eq_zero_or_pos s.length with hs | hs
    · exact .inr (.inl (h.pierces hs))
    rcases Nat.eq_zero_or_pos t.length with ht | ht
    · exact .inr (.inr (h.symm.pierces ht))
    · exact .inl (h.shares hs ht)
  · rintro (hshares | hpierces | hpierces)
    · exact hshares.meets
    · exact hpierces.meets
    · exact hpierces.meets.symm

theorem not_shares_of_empty (hs : s.length = 0) : ¬ s.Shares t := by
  rintro ⟨-, byte, ⟨hfrom, hto⟩, -⟩
  omega

/-! ## Parts -/

/-- The segment is cut into its first `head` bytes and the rest. -/
structure Parts (s : Segment) (head : Nat) (a b : Segment) : Prop where
  region : a.bufIndex = s.bufIndex ∧ b.bufIndex = s.bufIndex
  first : a.offset = s.offset ∧ a.length = head
  second : b.offset = s.offset + head ∧ b.length + head = s.length

theorem split_eq (hs : s.Ends) (hhead : head ≤ s.length) : ∃ a b, s.split head = .ok (a, b) ∧ s.Parts head a b := by
  have hmiddle : s.offset + head < wordCount := Nat.lt_of_le_of_lt (Nat.add_le_add_left hhead _) hs
  refine ⟨{ s with length := head }, { s with offset := s.offset + head, length := s.length - head }, ?_, ?_⟩
  · unfold split checkedAdd
    rw [if_neg (Nat.not_lt.2 hhead), if_pos hmiddle]
    rfl
  · exact ⟨⟨rfl, rfl⟩, ⟨rfl, rfl⟩, rfl, Nat.sub_add_cancel hhead⟩

namespace Parts

variable (h : s.Parts head a b)

include h

theorem ends (hs : s.Ends) : a.Ends ∧ b.Ends := by
  obtain ⟨-, ⟨hfrom, hlength⟩, hfrom', hlength'⟩ := h
  unfold Ends at hs ⊢
  omega

/-- Every byte of the whole is a byte of one part. -/
theorem holds (byte : Nat) : s.Holds byte ↔ a.Holds byte ∨ b.Holds byte := by
  obtain ⟨-, ⟨hfrom, hlength⟩, hfrom', hlength'⟩ := h
  unfold Holds
  omega

/-- No byte is one of both parts. -/
theorem not_both (byte : Nat) : ¬ (a.Holds byte ∧ b.Holds byte) := by
  obtain ⟨-, ⟨hfrom, hlength⟩, hfrom', hlength'⟩ := h
  unfold Holds
  omega

/-- The first part ends where the second one begins, even if one of them is empty. -/
theorem not_meets : ¬ a.Meets b := by
  obtain ⟨-, ⟨hfrom, hlength⟩, hfrom', hlength'⟩ := h
  rintro ⟨-, -, hafter⟩
  omega

/-- What meets the whole meets a part, unless it is empty and lies just where the whole was cut in two. -/
theorem meets_iff : t.Meets s ↔ t.Meets a ∨ t.Meets b ∨
    t.bufIndex = s.bufIndex ∧ t.length = 0 ∧ t.offset = s.offset + head ∧ 0 < head ∧ head < s.length := by
  obtain ⟨⟨hregion, hregion'⟩, ⟨hfrom, hlength⟩, hfrom', hlength'⟩ := h
  unfold Meets
  rw [hregion, hregion']
  by_cases hsame : t.bufIndex = s.bufIndex
  · simp only [hsame, true_and]
    omega
  · simp only [hsame, false_and, or_self]

end Parts

/-! ## Overlaps of segments and of their parts -/

/-- What the parts of a segment are, and what a segment that overlaps the whole has to do with them. -/
structure Cut (s : Segment) (head : Nat) (t a b : Segment) : Prop extends s.Parts head a b where
  ends : a.Ends ∧ b.Ends
  holds : ∀ byte, s.Holds byte ↔ a.Holds byte ∨ b.Holds byte
  not_both : ∀ byte, ¬ (a.Holds byte ∧ b.Holds byte)
  apart : a.overlaps b = .ok false ∧ b.overlaps a = .ok false
  /-- What overlaps the whole overlaps a part, unless it is empty and lies just where the whole was cut in two. -/
  third : ∃ whole first second, t.overlaps s = .ok whole ∧ t.overlaps a = .ok first ∧ t.overlaps b = .ok second ∧
    (whole = true ↔ first = true ∨ second = true ∨
      t.bufIndex = s.bufIndex ∧ t.length = 0 ∧ t.offset = s.offset + head ∧ 0 < head ∧ head < s.length)

theorem Parts.cut (h : s.Parts head a b) (hs : s.Ends) (ht : t.Ends) : s.Cut head t a b := by
  obtain ⟨ha, hb⟩ := h.ends hs
  refine { h with ends := ⟨ha, hb⟩, holds := h.holds, not_both := h.not_both, apart := ⟨?_, ?_⟩, third := ?_ }
  · rw [overlaps_eq ha hb, decide_eq_false h.not_meets]
  · rw [overlaps_eq hb ha, decide_eq_false fun hmeets => h.not_meets hmeets.symm]
  · refine ⟨_, _, _, overlaps_eq ht hs, overlaps_eq ht ha, overlaps_eq ht hb, ?_⟩
    simp only [decide_eq_true_eq]
    exact h.meets_iff

/-- Overlaps are symmetric and told by shared bytes, but for empty segments strictly inside others. A segment falls into
two parts that share nothing, and what overlaps it overlaps one of them, but for empty segments at the cut. -/
theorem overlaps_split (hs : s.Ends) (ht : t.Ends) (hhead : head ≤ s.length) :
    (∃ answer, s.overlaps t = .ok answer ∧ t.overlaps s = .ok answer ∧
      (answer = true ↔ s.Shares t ∨ s.Pierces t ∨ t.Pierces s) ∧
      (0 < s.length → 0 < t.length → (answer = true ↔ s.Shares t))) ∧
    ∃ a b, s.split head = .ok (a, b) ∧ s.Cut head t a b := by
  obtain ⟨a, b, hsplit, hparts⟩ := split_eq hs hhead
  refine ⟨⟨decide (s.Meets t), overlaps_eq hs ht, ?_, ?_, fun hs ht => ?_⟩, a, b, hsplit, hparts.cut hs ht⟩
  · rw [overlaps_eq ht hs]
    exact congrArg Except.ok (decide_eq_decide.2 meets_comm)
  · rw [decide_eq_true_eq]
    exact meets_iff
  · rw [decide_eq_true_eq]
    exact ⟨fun h => h.shares hs ht, Shares.meets⟩

/-- Two windows that overlap by half of their bytes, the first one cut where the second one begins. -/
theorem overlaps_split_halfway :
    (⟨0, 0, 16⟩ : Segment).Ends ∧ (⟨0, 8, 16⟩ : Segment).Ends ∧ 8 ≤ (⟨0, 0, 16⟩ : Segment).length ∧
      (∃ answer, overlaps ⟨0, 0, 16⟩ ⟨0, 8, 16⟩ = .ok answer ∧ answer = true) ∧
      ∃ a b, split ⟨0, 0, 16⟩ 8 = .ok (a, b) ∧ Cut ⟨0, 0, 16⟩ 8 ⟨0, 8, 16⟩ a b := by
  have hends : (⟨0, 0, 16⟩ : Segment).Ends ∧ (⟨0, 8, 16⟩ : Segment).Ends := by decide
  have hhead : 8 ≤ (⟨0, 0, 16⟩ : Segment).length := by decide
  obtain ⟨⟨answer, hanswer, -, -, hshares⟩, hparts⟩ := overlaps_split hends.1 hends.2 hhead
  refine ⟨hends.1, hends.2, hhead, ⟨answer, hanswer, ?_⟩, hparts⟩
  exact (hshares (by decide) (by decide)).2 ⟨rfl, 8, by decide, by decide⟩

/-- An empty window strictly inside another one: it overlaps it and shares no byte with it, and cut there the other one
has no part that it overlaps. -/
theorem overlaps_empty : ∃ s t a b : Segment, s.Ends ∧ t.Ends ∧ t.length = 0 ∧ s.overlaps t = .ok true ∧ ¬ s.Shares t ∧
    s.split 4 = .ok (a, b) ∧ t.overlaps a = .ok false ∧ t.overlaps b = .ok false := by
  refine ⟨⟨0, 0, 16⟩, ⟨0, 4, 0⟩, ⟨0, 0, 4⟩, ⟨0, 4, 12⟩, by decide, by decide, rfl, rfl, ?_, rfl, rfl, rfl⟩
  rintro ⟨hregion, byte, hs, ht⟩
  exact not_shares_of_empty rfl ⟨hregion.symm, byte, ht, hs⟩

end SlotServer.Segment
