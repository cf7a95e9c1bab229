import FormattedOutput.Proofs.Directive.Invariant
import FormattedOutput.Proofs.Directive.Sources
import FormattedOutput.Proofs.Number.Layouts
import FormattedOutput.Proofs.Number.Opening

/-!
# Filling a field

What a directive writes without a width is its content. A width adds what fills the field, and it
changes nothing of the content: there are blanks before it or behind it, or zeros behind its sign
and its base marker.
-/

namespace FormattedOutput

/-! ## Filled texts -/

/-- A text with blanks before it, up to the width of a directive. -/
def Directive.rightAdjust (d : Directive) (text : Bytes) : Bytes :=
  List.replicate (d.width.value - text.length).toNat 32 ++ text

/-- A text filled to the width of a directive. If the directive is adjusted to the left, blanks
stand behind the text. If zeros fill it, they stand behind its opening. Otherwise blanks stand
before it. -/
def Directive.fill (d : Directive) (zeros : Bool) (opening text : Bytes) : Bytes :=
  let missing := (d.width.value - text.length).toNat
  if d.flags.leftAdjust then text ++ List.replicate missing 32
  else if zeros then opening ++ List.replicate missing 48 ++ text.drop opening.length
  else d.rightAdjust text

namespace Directive

variable {d : Directive} {zeros : Bool} {opening text : Bytes}

theorem length_fill (h : opening <+: text) :
    (d.fill zeros opening text).length =
      text.length + (d.width.value - text.length).toNat := by
  obtain ⟨rest, rfl⟩ := h
  unfold fill rightAdjust
  split_ifs <;> simp <;> omega

/-- Filling leaves every byte of the text in its order. -/
theorem sublist_fill (h : opening <+: text) : text.Sublist (d.fill zeros opening text) := by
  obtain ⟨rest, rfl⟩ := h
  unfold fill rightAdjust
  split_ifs
  · exact List.sublist_append_left _ _
  · rw [List.drop_left]
    exact (List.sublist_append_left _ _).append (List.Sublist.refl rest)
  · exact List.sublist_append_right _ _

/-- A text that is wide enough is not filled. -/
theorem fill_of_le (h : opening <+: text) (hwidth : d.width.value ≤ text.length) :
    d.fill zeros opening text = text := by
  have hnone : (d.width.value - text.length).toNat = 0 := by omega
  obtain ⟨rest, rfl⟩ := h
  simp only [fill, rightAdjust, hnone, List.replicate_zero, List.append_nil, List.drop_left,
    List.nil_append, ite_self]

end Directive

/-! ## Fields -/

namespace Field

variable {f : Field} {d : Directive} {opening : Bytes}

/-- All of a field but what fills it. -/
def content (f : Field) : Bytes := f.lead.bytes ++ f.front.bytes ++ Piece.concat f.number

@[simp] theorem length_content (f : Field) : f.content.length = f.width := by
  have htotal := f.total_number
  simp only [content, List.length_append, ByteRun.length_bytes, Piece.length_concat]
  omega

theorem missing_eq (f : Field) (width : Int) :
    f.missing width = (width - f.content.length).toNat := by
  rw [missing, length_content]
  omega

theorem concat_plainLayout (f : Field) (d : Directive) :
    Piece.concat (f.plainLayout d) = d.rightAdjust f.content := by
  rw [plainLayout, missing_eq, Directive.rightAdjust]
  generalize (d.width.value - f.content.length).toNat = missing
  simp [content, ByteRun.piece, Piece.bytes]

/-- The opening of a field is what stands before the zeros that fill it. A lead is there only to
be followed by zeros. -/
structure Opens (f : Field) (d : Directive) (opening : Bytes) : Prop where
  lead_isEmpty : d.flags.zeroPad = false ∨ d.conversion.isFloat = false → f.lead.isEmpty = true
  lead_eq : d.flags.zeroPad = true → d.conversion.isFloat = true → f.lead.bytes = opening
  front_eq : d.flags.zeroPad = true → d.conversion.isFloat = false → f.front.bytes = opening

/-- A layout fills the content of its field. -/
theorem concat_layout (h : f.Opens d opening)
    (hpad : d.flags.leftAdjust = true → d.flags.zeroPad = false) :
    Piece.concat (f.layout d) = d.fill d.flags.zeroPad opening f.content := by
  unfold layout Directive.fill Directive.rightAdjust
  simp only [missing_eq]
  generalize (d.width.value - f.content.length).toNat = missing
  cases hzero : d.flags.zeroPad with
  | false =>
    have hlead := f.lead.isEmpty_iff.mp (h.lead_isEmpty (Or.inl hzero))
    cases d.flags.leftAdjust <;> simp [content, hlead, ByteRun.piece, Piece.bytes]
  | true =>
    have hleft : d.flags.leftAdjust = false := by
      by_contra hleft
      rw [hpad (by simpa using hleft)] at hzero
      contradiction
    -- Zeros follow the lead of a floating-point number and the front of anything else.
    cases hfloat : d.conversion.isFloat with
    | true =>
      have hlead := h.lead_eq hzero hfloat
      simp [content, hleft, hlead, ByteRun.piece, Piece.bytes]
    | false =>
      have hlead := f.lead.isEmpty_iff.mp (h.lead_isEmpty (Or.inr hfloat))
      have hfront := h.front_eq hzero hfloat
      simp [content, hleft, hlead, hfront, ByteRun.piece, Piece.bytes]

/-- The number of a field is its body and its back, with the zeros between them. -/
theorem concat_number (f : Field) :
    Piece.concat f.number = List.replicate f.leadingZeros 48 ++ f.body.bytes ++
      List.replicate f.trailingZeros 48 ++ f.back.bytes ++ List.replicate f.backZeros.toNat 48 := by
  simp [number, ByteRun.piece, Piece.bytes]

theorem opens_ofText (text : Bytes) (d : Directive) : (ofText text).Opens d [] :=
  ⟨fun _ => rfl, fun _ _ => rfl, fun _ _ => rfl⟩

end Field

/-! ## Numbers -/

namespace Directive

/-- What an integer writes: its opening, and its digits. -/
theorem content_integerField (d : Directive) (hfloat : d.conversion.isFloat = false)
    (hpointer : d.conversion = .pointer → d.flags.alternate = true) (value : Int) :
    (d.integerField value).content =
      d.integerOpening value ++ Piece.concat (d.integerField value).number := by
  rw [← integerFront_eq hfloat hpointer]
  rfl

theorem opens_integerField (d : Directive) (value : Int) (hfloat : d.conversion.isFloat = false)
    (hpointer : d.conversion = .pointer → d.flags.alternate = true) :
    (d.integerField value).Opens d (d.integerOpening value) := by
  refine ⟨fun _ => rfl, ?_, fun _ _ => integerFront_eq hfloat hpointer value⟩
  intro _ hother
  rw [hfloat] at hother
  contradiction

/-- What a floating-point number writes: a sign, and a word or the text of the parts. -/
theorem content_floatField (d : Directive) (x : Binary64) :
    (d.floatField x).content = d.signText x.negative ++
      (if x.exponent = 2047 then d.floatWord x else (d.floatParts x).text) := by
  unfold floatField
  split_ifs <;>
    simp [Field.content, Field.concat_number, FloatParts.text, Field.leadingZeros,
      Field.trailingZeros, ByteRun.bytes]

theorem floatOpening_isPrefix (d : Directive) (x : Binary64)
    (hfloat : d.conversion.isFloat = true) : d.floatOpening x <+: (d.floatField x).content := by
  rw [content_floatField]
  unfold floatOpening
  by_cases hword : x.exponent = 2047
  · rw [if_pos hword]
    exact List.nil_prefix
  · rw [if_neg hword, if_neg hword, signText_eq, List.prefix_append_right_inj,
      ← d.take_front_floatParts x hfloat]
    refine (List.take_prefix _ _).trans ?_
    simp only [FloatParts.text, List.append_assoc]
    exact List.prefix_append _ _

theorem opens_floatField (d : Directive) (x : Binary64) (hfloat : d.conversion.isFloat = true)
    (hx : x.exponent ≠ 2047) : (d.floatField x).Opens d (d.floatOpening x) := by
  unfold floatField floatOpening
  simp only [if_neg hx, ← signText_eq, ← d.take_front_floatParts x hfloat]
  constructor
  · rintro (hzero | hother)
    · rw [hzero]
      rfl
    · rw [hfloat] at hother
      contradiction
  · intro hzero _
    rw [hzero]
    rfl
  · intro _ hother
    rw [hfloat] at hother
    contradiction

/-- A word is laid out as a text is, whatever fills the field. -/
theorem concat_layout_word (d : Directive) {x : Binary64} (hx : x.exponent = 2047) (zeros : Bool)
    (opening : Bytes) :
    Piece.concat (((d.forValue x).floatField x).layout (d.forValue x)) =
      d.fill (zeros && !decide (x.exponent = 2047)) opening (d.floatField x).content := by
  have hopens : ((d.forValue x).floatField x).Opens (d.forValue x) [] := by
    unfold forValue floatField
    rw [if_pos hx, if_pos hx]
    exact ⟨fun _ => rfl, fun hzero => absurd hzero Bool.false_ne_true,
      fun hzero => absurd hzero Bool.false_ne_true⟩
  have hplain : (d.forValue x).flags.zeroPad = false := by
    unfold forValue
    rw [if_pos hx]
  have hcontent : ((d.forValue x).floatField x).content = (d.floatField x).content := by
    rw [content_floatField, content_floatField, if_pos hx, if_pos hx]
    unfold forValue
    rw [if_pos hx]
    rfl
  rw [Field.concat_layout hopens (fun _ => hplain), hplain, hcontent]
  unfold fill rightAdjust forValue
  simp [hx]

/-- A floating-point number is filled behind its opening. -/
theorem concat_layout_number (d : Directive) {x : Binary64} (hx : x.exponent ≠ 2047)
    (hfloat : d.conversion.isFloat = true)
    (hpad : d.flags.leftAdjust = true → d.flags.zeroPad = false) :
    Piece.concat (((d.forValue x).floatField x).layout (d.forValue x)) =
      d.fill (d.flags.zeroPad && !decide (x.exponent = 2047)) (d.floatOpening x)
        (d.floatField x).content := by
  have hvalue : d.forValue x = d := by
    rw [forValue, if_neg hx]
  rw [hvalue, Field.concat_layout (d.opens_floatField x hfloat hx) hpad]
  simp [hx]

end Directive

/-! ## Segments -/

/-- What a conversion settles about the flags of its directive: a field that is filled on the right
is not filled with zeros, and a pointer is written in the other form. -/
structure Directive.IsSettled (d : Directive) : Prop where
  zeroPad_of_leftAdjust : d.flags.leftAdjust = true → d.flags.zeroPad = false
  alternate_of_pointer : d.conversion = .pointer → d.flags.alternate = true

theorem Directive.Valid.isSettled {d : Directive} {last : UInt8} (h : d.Valid last) :
    d.IsSettled := ⟨h.zeroPad_of_leftAdjust, h.alternate_of_pointer⟩

/-- What a directive can make of its argument. -/
inductive Directive.Makes (d : Directive) : Segment → Prop where
  | integer (value : Int) (h : d.conversion.isFloat = false) : Makes d (.integer d value)
  | double (bits : UInt64) (h : d.conversion.isFloat = true) : Makes d (.double d bits)
  | unavailable (h : d.conversion.isFloat = true) : Makes d (.unavailable d)
  | text (bytes : Bytes) (h : d.conversion.isFloat = false) : Makes d (.text d bytes)

theorem Taken.exists_of_map_eq_ok {α β : Type} {f : α → β} {taken : Taken α} {y : β}
    {left : List Arg} (h : taken.map f = (.ok y, left)) : ∃ x, taken = (.ok x, left) ∧ y = f x := by
  obtain ⟨_ | x, args⟩ := taken
  · simp [map] at h
  · simp only [map, Prod.mk.injEq, Except.ok.injEq] at h
    obtain ⟨rfl, rfl⟩ := h
    exact ⟨x, rfl, rfl⟩

theorem Directive.makes_of_resolve {d : Directive} {args left : List Arg} {segment : Segment}
    (h : d.resolve args = (.ok segment, left)) : d.Makes segment := by
  unfold resolve at h
  cases hconversion : d.conversion with
  | signed =>
    simp only [hconversion] at h
    split at h
    · obtain ⟨word, _, rfl⟩ := Taken.exists_of_map_eq_ok h
      exact .integer _ (by rw [hconversion]; rfl)
    · simp at h
  | unsigned radix =>
    simp only [hconversion] at h
    split at h
    · obtain ⟨word, _, rfl⟩ := Taken.exists_of_map_eq_ok h
      exact .integer _ (by rw [hconversion]; rfl)
    · simp at h
  | pointer =>
    simp only [hconversion] at h
    obtain ⟨word, _, rfl⟩ := Taken.exists_of_map_eq_ok h
    exact .integer _ (by rw [hconversion]; rfl)
  | float style =>
    simp only [hconversion, resolveFloat] at h
    split at h
    · obtain ⟨_, _, rfl⟩ := Taken.exists_of_map_eq_ok h
      exact .unavailable (by rw [hconversion]; rfl)
    · obtain ⟨bits, _, rfl⟩ := Taken.exists_of_map_eq_ok h
      exact .double bits (by rw [hconversion]; rfl)
  | char =>
    simp only [hconversion] at h
    obtain ⟨word, _, rfl⟩ := Taken.exists_of_map_eq_ok h
    exact .text _ (by rw [hconversion]; rfl)
  | string =>
    simp only [hconversion] at h
    obtain ⟨word, _, rfl⟩ := Taken.exists_of_map_eq_ok h
    exact .text _ (by rw [hconversion]; rfl)

namespace Segment

/-- What a segment writes, as bytes. -/
def bytes (r : Renderer) (s : Segment) : Bytes := Piece.concat (s.pieces r)

/-- The field of a segment. -/
def field : Segment → Field
  | .literal byte => .ofText [byte]
  | .integer d value => d.integerField value
  | .double d bits => d.floatField (.ofBits bits)
  | .text _ bytes => .ofText bytes
  | .unavailable _ => Renderer.placeholder

/-- What a segment writes where nothing is filled. -/
def content (s : Segment) : Bytes := s.field.content

/-- What stands before the zeros that fill a segment: the sign or the base marker of an integer,
and the sign and the base marker of a floating-point number. -/
def opening : Segment → Bytes
  | .integer d value => d.integerOpening value
  | .double d bits => d.floatOpening (.ofBits bits)
  | _ => []

/-- The segment is an infinity or a NaN. -/
def isWord : Segment → Bool
  | .double _ bits => (Binary64.ofBits bits).exponent = 2047
  | _ => false

variable {d : Directive} {s : Segment}

theorem opening_isPrefix (hmakes : d.Makes s) (hsettled : d.IsSettled) :
    s.opening <+: s.content := by
  cases hmakes with
  | integer value hfloat =>
    exact ⟨_, (d.content_integerField hfloat hsettled.alternate_of_pointer value).symm⟩
  | double bits hfloat => exact d.floatOpening_isPrefix _ hfloat
  | unavailable _ => exact List.nil_prefix
  | text bytes _ => exact List.nil_prefix

/-- The full renderer fills what a segment writes. Zeros fill it if the directive says so, but they
never fill a word. -/
theorem bytes_full (hmakes : d.Makes s) (hsettled : d.IsSettled) :
    s.bytes .full = d.fill (d.flags.zeroPad && !s.isWord) s.opening s.content := by
  have hplain : ∀ f : Field, ∀ opening, f.Opens d opening → Piece.concat (f.layout d) =
      d.fill (d.flags.zeroPad && !false) opening f.content := by
    intro f opening hopens
    rw [Field.concat_layout hopens hsettled.zeroPad_of_leftAdjust]
    simp
  cases hmakes with
  | integer value hfloat =>
    exact hplain _ _ (d.opens_integerField value hfloat hsettled.alternate_of_pointer)
  | double bits hfloat =>
    by_cases hword : (Binary64.ofBits bits).exponent = 2047
    · exact d.concat_layout_word hword _ _
    · exact d.concat_layout_number hword hfloat hsettled.zeroPad_of_leftAdjust
  | unavailable _ => exact hplain _ _ (Field.opens_ofText _ d)
  | text bytes _ => exact hplain _ _ (Field.opens_ofText bytes d)

end Segment

/-! ## Directives -/

namespace Directive

/-- The directive with another width. -/
def withWidth (d : Directive) (width : Int) : Directive :=
  { d with width := { d.width with value := width } }

/-- The directive with other flags for what fills its field. -/
def withFilling (d : Directive) (zeroPad leftAdjust : Bool) : Directive :=
  { d with flags := { d.flags with zeroPad, leftAdjust } }

/-- Takes the argument of a directive and writes it. -/
def writes (d : Directive) (r : Renderer) (args : List Arg) : Taken Bytes :=
  (d.resolve args).map (Segment.bytes r)

variable {d : Directive} {args left : List Arg} {s : Segment}

/-- Neither the width nor the flags that say what fills a field change what is in it. -/
theorem content_mapDirective_withFilling (s : Segment) (width : Int) (zeroPad leftAdjust : Bool) :
    (s.mapDirective fun d => (d.withWidth width).withFilling zeroPad leftAdjust).content =
      s.content := by
  cases s with
  | double d bits =>
    simp only [Segment.mapDirective, Segment.content, Segment.field, content_floatField]
    rfl
  | _ => rfl

theorem IsSettled.withWidth (h : d.IsSettled) (width : Int) : (d.withWidth width).IsSettled :=
  ⟨h.zeroPad_of_leftAdjust, h.alternate_of_pointer⟩

/-- With the width 0 a directive writes what is in its field, whatever would fill it. -/
theorem writes_withFilling (hresolve : d.resolve args = (.ok s, left)) (hsettled : d.IsSettled)
    {zeroPad leftAdjust : Bool} (hpad : leftAdjust = true → zeroPad = false) :
    ((d.withWidth 0).withFilling zeroPad leftAdjust).writes .full args =
      (.ok s.content, left) := by
  let unfilled : Directive → Directive := fun d => (d.withWidth 0).withFilling zeroPad leftAdjust
  have hplain : (unfilled d).resolve args = (.ok (s.mapDirective unfilled), left) := by
    rw [resolve_map rfl rfl rfl, hresolve]
    rfl
  have hmakes := makes_of_resolve hplain
  have hsettled' : (unfilled d).IsSettled := ⟨hpad, hsettled.alternate_of_pointer⟩
  have hfull := Segment.bytes_full hmakes hsettled'
  rw [fill_of_le (Segment.opening_isPrefix hmakes hsettled') (Int.natCast_nonneg _),
    content_mapDirective_withFilling] at hfull
  rw [writes, hplain, Taken.map, hfull]

theorem writes_unfilled (hresolve : d.resolve args = (.ok s, left)) (hsettled : d.IsSettled) :
    (d.withWidth 0).writes .full args = (.ok s.content, left) :=
  writes_withFilling hresolve hsettled hsettled.zeroPad_of_leftAdjust

theorem isSettled_of_read {text : Bytes} {start stop : Nat} {args' : List Arg}
    (h : Directive.read text start args = (.ok (d, stop), args')) : d.IsSettled := by
  obtain ⟨t, after, -, -, hdirective⟩ := DirectiveText.exists_of_read h
  exact (DirectiveText.valid_of_directive hdirective).isSettled

end Directive

/-- Whatever its width is, a directive that is accepted writes all of what it writes with the width
0, and fills the places that are missing. Zeros stand behind the sign and the base marker of a
number, and they never fill an infinity or a NaN. What is filled does not depend on what fills
it. -/
theorem directive_fills {text : Bytes} {start stop : Nat} {args args' left : List Arg}
    {d : Directive} {s : Segment} (hread : Directive.read text start args = (.ok (d, stop), args'))
    (hresolve : d.resolve args' = (.ok s, left)) :
    ∃ plain out, (d.withWidth 0).writes .full args' = (.ok plain, left) ∧
      d.writes .full args' = (.ok out, left) ∧
      out = d.fill (d.flags.zeroPad && !s.isWord) s.opening plain ∧
      s.opening <+: plain ∧
      out.length = plain.length + (d.width.value - plain.length).toNat ∧
      plain.Sublist out ∧
      ∀ zeroPad leftAdjust, (leftAdjust = true → zeroPad = false) →
        ((d.withWidth 0).withFilling zeroPad leftAdjust).writes .full args' =
          (.ok plain, left) := by
  have hsettled := Directive.isSettled_of_read hread
  have hmakes := Directive.makes_of_resolve hresolve
  have hopening := Segment.opening_isPrefix hmakes hsettled
  have hout : d.writes .full args' = (.ok (s.bytes .full), left) := by
    rw [Directive.writes, hresolve]
    rfl
  refine ⟨s.content, s.bytes .full, Directive.writes_unfilled hresolve hsettled, hout,
    Segment.bytes_full hmakes hsettled, hopening, ?_, ?_, ?_⟩
  · rw [Segment.bytes_full hmakes hsettled]
    exact Directive.length_fill hopening
  · rw [Segment.bytes_full hmakes hsettled]
    exact Directive.sublist_fill hopening
  · intro zeroPad leftAdjust hother
    exact Directive.writes_withFilling hresolve hsettled hother

/-- The zeros that fill a hexadecimal number stand behind its sign and its base marker. -/
theorem directive_fills_hex :
    ∃ d : Directive,
      Directive.read (latin ['%', '+', '0', '1', '6', '.', '1', 'a']) 0
        [.double 0x3FF8000000000000] = (.ok (d, 8), [.double 0x3FF8000000000000]) ∧
      ∃ plain out, (d.withWidth 0).writes .full [.double 0x3FF8000000000000] = (.ok plain, []) ∧
        d.writes .full [.double 0x3FF8000000000000] = (.ok out, []) ∧
        out = latin ['+', '0', 'x'] ++ List.replicate (16 - plain.length : Int).toNat 48 ++
          plain.drop 3 := by
  let d : Directive :=
    { flags := { plusSign := true, zeroPad := true }
      width := { given := true, value := 16 }
      precision := { given := true, value := 1 }
      conversion := .float .hex }
  have hread : Directive.read (latin ['%', '+', '0', '1', '6', '.', '1', 'a']) 0
      [.double 0x3FF8000000000000] = (.ok (d, 8), [.double 0x3FF8000000000000]) := by
    rfl
  have hresolve : d.resolve [.double 0x3FF8000000000000] =
      (.ok (.double d 0x3FF8000000000000), []) := rfl
  obtain ⟨plain, out, hplain, hout, hfill, -⟩ := directive_fills hread hresolve
  exact ⟨d, hread, plain, out, hplain, hout, hfill⟩

end FormattedOutput
