import FormattedOutput.Proofs.Directive.Consumption

/-!
# How far a directive is read

The parser looks at the bytes of the directive and at the arguments of its stars. What stands before
the directive or after its conversion does not count, and neither do the arguments that are left. A
directive that is rejected has taken no more arguments than the rest of the text has stars.
-/

namespace FormattedOutput

variable {text : Bytes} {start stop : Nat} {args left : List Arg} {d : Directive}

/-! ## The stars of a text -/

theorem Modifiers.star_snd (m : Modifiers) (args : List Arg) :
    (m.star args).2 = args ∨ (m.star args).2 = args.tail := by
  unfold star
  split
  · exact Or.inl rfl
  · have htail : (Arg.takeInt args).2 = args.tail := by
      simp [Arg.takeInt, Arg.takeWord]
    right
    rcases hvalue : Arg.takeInt args with ⟨fault | n, rest⟩
    · simpa [hvalue] using htail
    · simp only [hvalue] at htail ⊢
      split <;> exact htail

/-- The arguments that are left are the last ones, and at most so many are missing before them. -/
structure Spends (count : Nat) (args left : List Arg) : Prop where
  suffix : left <:+ args
  length_le : args.length ≤ left.length + count

theorem spends_self (count : Nat) (args : List Arg) : Spends count args args :=
  ⟨List.suffix_refl args, Nat.le_add_right _ _⟩

theorem Spends.mono {count count' : Nat} (h : Spends count args left) (hle : count ≤ count') :
    Spends count' args left :=
  ⟨h.suffix, Nat.le_trans h.length_le (Nat.add_le_add_left hle _)⟩

/-- A star takes one argument at most. -/
theorem Modifiers.spends_star (m : Modifiers) (args : List Arg) :
    Spends 1 args (m.star args).2 := by
  rcases m.star_snd args with hsame | htail
  · rw [hsame]
    exact spends_self 1 args
  · rw [htail]
    refine ⟨List.tail_suffix args, ?_⟩
    rw [List.length_tail]
    omega

theorem Spends.trans {first second : Nat} {middle : List Arg} (h : Spends first args middle)
    (h' : Spends second middle left) : Spends (first + second) args left := by
  refine ⟨h'.suffix.trans h.suffix, ?_⟩
  have hfirst := h.length_le
  have hsecond := h'.length_le
  omega

/-- A byte that is read as a star is one. -/
theorem Mark.byte_of_star {byte : UInt8} (h : Symbol.ofByte byte = .star) : byte = 42 := by
  have hbytes := bytes_of_ofSymbol? (show ofSymbol? (.ofByte byte) = some .star by rw [h]; rfl)
  simpa [bytes] using hbytes.symm

theorem Spends.cons {byte : UInt8} (h : Spends (text.count 42) args left) :
    Spends ((byte :: text).count 42) args left :=
  h.mono List.count_le_count_cons

/-- Accepted or not, a directive takes no more arguments than the text has stars. -/
theorem Modifiers.spends_parse (m : Modifiers) (text : Bytes) (args : List Arg) :
    Spends (text.count 42) args (m.parse text args).2 := by
  fun_induction Modifiers.parse m text args with
  | case1 => exact spends_self _ _
  | case2 => exact spends_self _ _
  | case3 => exact spends_self _ _
  | case4 m byte text args f hbyte ih => exact ih.cons
  | case5 m byte text args n hbyte m' hdigit ih => exact ih.cons
  | case6 => exact spends_self _ _
  | case7 m byte text args hbyte m' hpoint ih => exact ih.cons
  | case8 => exact spends_self _ _
  | case9 m byte text args hbyte m' args' hstar ih =>
    have hspends := m.spends_star args
    rw [hstar] at hspends
    rw [Mark.byte_of_star hbyte, List.count_cons_self, Nat.add_comm]
    exact hspends.trans ih
  | case10 m byte text args hbyte fault args' hstar =>
    have hspends := m.spends_star args
    rw [hstar] at hspends
    rw [Mark.byte_of_star hbyte, List.count_cons_self]
    exact hspends.mono (Nat.le_add_left _ _)
  | case11 => exact spends_self _ _
  | case12 m byte args length text hbyte hlength ih => exact ih.cons.cons
  | case13 m byte text args x hbyte length hlength hnext ih => exact ih.cons
  | case14 => exact spends_self _ _
  | case15 => exact spends_self _ _

/-! ## Where a directive ends -/

namespace DirectiveText

theorem exists_of_read (h : Directive.read text start args = (.ok (d, stop), left)) :
    ∃ (t : DirectiveText) (after : Bytes), text.drop (start + 1) = t.bytes ++ after ∧
      stop = start + 1 + t.bytes.length ∧ t.directive args = (.ok d, left) := by
  rcases hparse : Modifiers.parse {} (text.drop (start + 1)) args with ⟨fault | ⟨d', rest⟩, left'⟩
  · simp [Directive.read, hparse] at h
  · obtain ⟨t, htext, hdirective⟩ := exists_of_parse hparse
    rw [read_of_drop htext, hdirective] at h
    simp only [Prod.mk.injEq, Except.ok.injEq] at h
    obtain ⟨⟨rfl, rfl⟩, rfl⟩ := h
    exact ⟨t, rest, htext, rfl, hdirective⟩

end DirectiveText

/-- The bytes of a text that stand after one place and before another. -/
def bytesBetween (text : Bytes) (start stop : Nat) : Bytes :=
  (text.drop (start + 1)).take (stop - (start + 1))

theorem bytesBetween_of_drop {t : DirectiveText} {after : Bytes}
    (h : text.drop (start + 1) = t.bytes ++ after) :
    bytesBetween text start (start + 1 + t.bytes.length) = t.bytes := by
  unfold bytesBetween
  rw [h, Nat.add_sub_cancel_left, List.take_left]

/-- Two texts that agree between two places have the same bytes there. -/
theorem bytesBetween_congr {other : Bytes}
    (h : ∀ i, start < i → i < stop → other[i]? = text[i]?) :
    bytesBetween other start stop = bytesBetween text start stop := by
  apply List.ext_getElem?
  intro i
  unfold bytesBetween
  rw [List.getElem?_take, List.getElem?_take, List.getElem?_drop, List.getElem?_drop]
  split
  · exact h _ (by omega) (by omega)
  · rfl

/-- A directive is told by the bytes up to its conversion and by the arguments of its stars. No byte
of these ends the format text, and no other byte or argument makes a difference. A directive that is
rejected is told where it stands, and it has taken no more arguments than stars follow. -/
theorem directive_reads_only (text : Bytes) (start : Nat) (args : List Arg) :
    match Directive.read text start args with
    | (.ok (d, stop), left) =>
      start + 2 ≤ stop ∧ stop ≤ text.length ∧ 0 ∉ bytesBetween text start stop ∧
        ∃ taken, args = taken ++ left ∧ taken.length = (bytesBetween text start stop).count 42 ∧
          ∀ other : Bytes, (∀ i, start < i → i < stop → other[i]? = text[i]?) → ∀ rest,
            Directive.read other start (taken ++ rest) = (.ok (d, stop), rest)
    | (.error e, left) =>
      e.position = start ∧ ∃ taken, args = taken ++ left ∧
        taken.length ≤ (text.drop (start + 1)).count 42 := by
  rcases hread : Directive.read text start args with ⟨e | ⟨d, stop⟩, left⟩
  · have hspends := Modifiers.spends_parse {} (text.drop (start + 1)) args
    unfold Directive.read at hread
    rcases hparse : Modifiers.parse {} (text.drop (start + 1)) args with ⟨fault | found, left'⟩
    · simp only [hparse, Prod.mk.injEq, Except.error.injEq] at hread hspends
      obtain ⟨rfl, rfl⟩ := hread
      obtain ⟨⟨taken, rfl⟩, hlength⟩ := hspends
      rw [List.length_append] at hlength
      exact ⟨rfl, taken, rfl, by omega⟩
    · simp [hparse] at hread
  · obtain ⟨t, after, hdrop, rfl, hdirective⟩ := DirectiveText.exists_of_read hread
    obtain ⟨taken, rfl, hcount, hconsumes⟩ := t.takes_directive.exists_taken hdirective
    have hpos := List.length_pos_iff_ne_nil.mpr t.bytes_ne_nil
    have hlength := DirectiveText.length_of_drop hdrop
    simp only [bytesBetween_of_drop hdrop]
    refine ⟨by omega, by omega, fun hzero => (t.bytes_ne hzero).1 rfl, taken, rfl, ?_, ?_⟩
    · rw [hcount, t.count_bytes]
    · intro other hagree rest
      have hbytes := bytesBetween_congr hagree
      rw [bytesBetween_of_drop hdrop] at hbytes
      have hother : other.drop (start + 1) =
          t.bytes ++ (other.drop (start + 1)).drop t.bytes.length := by
        conv_lhs => rw [← List.take_append_drop t.bytes.length (other.drop (start + 1))]
        rw [bytesBetween, Nat.add_sub_cancel_left] at hbytes
        rw [hbytes]
      rw [DirectiveText.read_of_drop hother, hconsumes.enough]

/-- One byte behind the conversion is not looked at, nor is the argument of the conversion. -/
example : Directive.read (latin ['%', '*', 'w', '8', 'd', 'f']) 0 [.int 4, .string none] =
    (.ok ({ width := { given := true, fromArgument := true, value := 4 }
            length := .exact 8
            conversion := .signed }, 5), [.string none]) := by
  decide +kernel

end FormattedOutput
