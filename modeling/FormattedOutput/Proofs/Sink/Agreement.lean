import FormattedOutput.Sink.Bounded

/-!
# Buffers and streams

A buffer that gets the same output as a stream gives the same answers. It keeps the front of what
the stream passes on, and what stood in it after that front stays. Its size decides how much it
keeps and nothing else.
-/

namespace FormattedOutput

variable {cells : Array UInt8} {output : Bytes}

/-! ## What a buffer keeps -/

namespace BoundedBuffer

/-- How many bytes of some output fit into a buffer, the zero byte at the end apart. -/
def kept (cells : Array UInt8) (output : Bytes) : Nat := min output.length (cells.size - 1)

/-- A buffer after some output: the front that fits stands before what stood there already. -/
structure Holds (cells : Array UInt8) (output : Bytes) (b : BoundedBuffer) : Prop where
  count_eq : b.count = output.length
  cells_eq : b.cells.toList =
    output.take (kept cells output) ++ cells.toList.drop (kept cells output)

/-- A buffer that is given back after some output: the front that fits, a zero byte and what stood
there already. Where there is no place for a zero byte, nothing is written. -/
structure Leaves (cells : Array UInt8) (output : Bytes) (b : BoundedBuffer) : Prop where
  count_eq : b.count = output.length
  cells_eq : 0 < cells.size → b.cells.toList =
    output.take (kept cells output) ++ 0 :: cells.toList.drop (kept cells output + 1)
  unwritten : cells.size = 0 → b.cells = cells

/-- The byte after a front can be overwritten, and what follows it stays. -/
theorem set_after_front {front list : Bytes} (byte : UInt8) (h : front.length < list.length) :
    (front ++ list.drop front.length).set front.length byte =
      front ++ byte :: list.drop (front.length + 1) := by
  rw [List.set_append_right _ _ (Nat.le_refl _), Nat.sub_self, List.drop_eq_getElem_cons h,
    List.set_cons_zero]

theorem holds_nil (cells : Array UInt8) : Holds cells [] ⟨cells, 0⟩ := by
  constructor
  · rfl
  · simp [kept]

variable {b : BoundedBuffer}

theorem Holds.size_eq (h : Holds cells output b) : b.cells.size = cells.size := by
  have hlength := congrArg List.length h.cells_eq
  simp only [List.length_append, List.length_take, List.length_drop, Array.length_toList]
    at hlength
  unfold kept at hlength
  omega

theorem length_front (cells : Array UInt8) (output : Bytes) :
    (output.take (kept cells output)).length = kept cells output := by
  rw [List.length_take]
  unfold kept
  omega

/-- One more byte is kept if a place for the zero byte is left, and is only counted if not. -/
theorem Holds.put (h : Holds cells output b) (byte : UInt8) :
    Holds cells (output ++ [byte]) (b.put byte) := by
  have hsize := h.size_eq
  obtain ⟨hcount, hcells⟩ := h
  constructor
  · rw [count_put, hcount, List.length_append, List.length_singleton]
  · have hlength : (output ++ [byte]).length = output.length + 1 := List.length_append
    unfold BoundedBuffer.put
    simp only
    by_cases hfits : b.count + 1 < b.cells.size
    · -- The byte goes to the first cell that was not written.
      have hkept : kept cells output = output.length := by
        unfold kept
        omega
      have hnext : kept cells (output ++ [byte]) = output.length + 1 := by
        unfold kept
        omega
      have hlt : output.length < cells.toList.length := by
        rw [@Array.length_toList _ cells]
        omega
      rw [if_pos hfits, Array.toList_setIfInBounds, hcells, hkept, hnext, List.take_length, hcount,
        set_after_front byte hlt, ← hlength, List.take_length, List.append_assoc]
      rfl
    · -- The last cell is left to the zero byte, so the front is as long as before.
      have hsame : kept cells (output ++ [byte]) = kept cells output := by
        unfold kept
        omega
      have hle : kept cells output ≤ output.length := by
        unfold kept
        omega
      rw [if_neg hfits, hcells, hsame, List.take_append_of_le_length hle]

theorem Holds.write (h : Holds cells output b) (piece : Piece) :
    Holds cells (output ++ piece.bytes) (b.write piece) := by
  -- A piece is written byte by byte, however it is kept.
  rw [write_eq_foldl]
  generalize piece.bytes = bytes
  induction bytes generalizing output b with
  | nil =>
    rw [List.append_nil]
    exact h
  | cons byte bytes ih =>
    have hrest := ih (h.put byte)
    rw [List.append_assoc, List.singleton_append] at hrest
    exact hrest

/-- The zero byte stands after the front that was kept. -/
theorem Holds.terminate (h : Holds cells output b) : Leaves cells output b.terminate := by
  have hsize := h.size_eq
  obtain ⟨hcount, hcells⟩ := h
  have hplace : min b.count (b.capacity - 1) = kept cells output := by
    unfold capacity kept
    rw [hcount, hsize]
  have hset : b.terminate.cells.toList = b.cells.toList.set (kept cells output) 0 := by
    unfold BoundedBuffer.terminate
    simp only
    rw [hplace, Array.toList_setIfInBounds]
  constructor
  · exact hcount
  · intro hpos
    have hlt : kept cells output < cells.toList.length := by
      rw [@Array.length_toList _ cells]
      unfold kept
      omega
    have hset' := @set_after_front (output.take (kept cells output)) cells.toList 0
    rw [length_front] at hset'
    rw [hset, hcells]
    exact hset' hlt
  · intro hzero
    have hempty : cells = #[] := Array.eq_empty_of_size_eq_zero hzero
    rw [hempty]
    apply Array.eq_empty_of_size_eq_zero
    rw [← Array.length_toList, hset, List.length_set, Array.length_toList, hsize, hzero]

end BoundedBuffer

/-! ## A stream and a buffer with the same output -/

/-- A stream and a buffer that had the same output since they were new. -/
structure Mirrors (device : Device) (cells : Array UInt8) (output : Bytes) (s : Stream)
    (b : BoundedBuffer) : Prop where
  stream_eq : s = ⟨device.receive output, output.length⟩
  holds : BoundedBuffer.Holds cells output b

namespace Mirrors

variable {device : Device} {s : Stream} {b : BoundedBuffer}

theorem start (device : Device) (cells : Array UInt8) :
    Mirrors device cells [] ⟨device, 0⟩ ⟨cells, 0⟩ := by
  refine ⟨?_, BoundedBuffer.holds_nil cells⟩
  rw [Device.receive_nil]
  rfl

theorem count_eq (h : Mirrors device cells output s b) : Sink.count b = Sink.count s := by
  obtain ⟨rfl, hholds⟩ := h
  exact hholds.count_eq

theorem write (h : Mirrors device cells output s b) (piece : Piece) :
    Mirrors device cells (output ++ piece.bytes) (s.write piece) (b.write piece) := by
  obtain ⟨rfl, hholds⟩ := h
  refine ⟨?_, hholds.write piece⟩
  unfold Stream.write
  rw [Device.receive_receive, List.length_append, Piece.length_bytes]

theorem writeAll (h : Mirrors device cells output s b) (pieces : List Piece) :
    Mirrors device cells (output ++ Piece.concat pieces) (Sink.writeAll s pieces)
      (Sink.writeAll b pieces) := by
  induction pieces generalizing output s b with
  | nil =>
    rw [Piece.concat_nil, List.append_nil]
    exact h
  | cons piece pieces ih =>
    rw [Piece.concat_cons, ← List.append_assoc]
    exact ih (h.write piece)

/-- A format text comes to the same result, whether it succeeds or fails. -/
theorem format (h : Mirrors device cells output s b) (r : Renderer) (text : Bytes)
    (args : List Arg) :
    (Sink.format b r text args).2 = (Sink.format s r text args).2 ∧
      Mirrors device cells (output ++ (FormattedOutput.format r text args).bytes)
        (Sink.format s r text args).1 (Sink.format b r text args).1 := by
  have hall := h.writeAll (FormattedOutput.format r text args).pieces
  unfold Sink.format
  simp only
  cases (FormattedOutput.format r text args).failure with
  | none => exact ⟨congrArg Except.ok hall.count_eq, hall⟩
  | some error => exact ⟨rfl, hall⟩

/-- A step gives the same answer. -/
theorem perform (h : Mirrors device cells output s b) (step : WriteStep) :
    (step.perform b).2 = (step.perform s).2 ∧
      Mirrors device cells (output ++ Piece.concat step.pieces) (step.perform s).1
        (step.perform b).1 := by
  have hall := h.writeAll step.pieces
  have hcount := congrArg (WriteAnswer.mk none) hall.count_eq
  -- Only a format text has a result besides the count.
  cases step with
  | byte byte => exact ⟨hcount, hall⟩
  | fill count byte => exact ⟨hcount, hall⟩
  | format r text args =>
    obtain ⟨hresult, hmirrors⟩ := h.format r text args
    refine ⟨?_, hmirrors⟩
    unfold WriteStep.perform
    simp only
    rw [hresult, hmirrors.count_eq]
  | double r bits d => exact ⟨hcount, hall⟩
  | field r f d => exact ⟨hcount, hall⟩
  | run run => exact ⟨hcount, hall⟩

/-- All steps give the same answers. -/
theorem performAll (h : Mirrors device cells output s b) (steps : List WriteStep) :
    (WriteStep.performAll b steps).2 = (WriteStep.performAll s steps).2 ∧
      Mirrors device cells (output ++ Piece.concat (steps.flatMap WriteStep.pieces))
        (WriteStep.performAll s steps).1 (WriteStep.performAll b steps).1 := by
  induction steps generalizing output s b with
  | nil =>
    rw [List.flatMap_nil, Piece.concat_nil, List.append_nil]
    exact ⟨rfl, h⟩
  | cons step steps ih =>
    obtain ⟨hanswer, hnext⟩ := h.perform step
    obtain ⟨hanswers, hlast⟩ := ih hnext
    rw [List.flatMap_cons, Piece.concat_append, ← List.append_assoc]
    refine ⟨?_, hlast⟩
    unfold WriteStep.performAll
    simp only
    rw [hanswer, hanswers]

end Mirrors

/-- Whatever is written to a new buffer, every step answers as it does on a new stream. The buffer
is left with the front of what the device received. So is a buffer that a text is formatted into,
with the result of the stream, whether or not the text is rejected. -/
theorem buffer_follows_stream (cells : Array UInt8) (device : Device) :
    (∀ steps : List WriteStep, ∃ output,
      (WriteStep.performAll (Stream.mk device 0) steps).1 =
        ⟨device.receive output, output.length⟩ ∧
      (WriteStep.performAll (BoundedBuffer.mk cells 0) steps).2 =
        (WriteStep.performAll (Stream.mk device 0) steps).2 ∧
      (WriteStep.performAll (BoundedBuffer.mk cells 0) steps).1.terminate.Leaves cells output) ∧
    ∀ (text : Bytes) (args : List Arg), ∃ output,
      (Sink.format (Stream.mk device 0) .full text args).1 =
        ⟨device.receive output, output.length⟩ ∧
      (formatInto cells text args).result = (Sink.format (Stream.mk device 0) .full text args).2 ∧
      (∀ count, (formatInto cells text args).result = .ok count → count = output.length) ∧
      (formatInto cells text args).buffer.Leaves cells output := by
  have hstart := Mirrors.start device cells
  constructor
  · intro steps
    obtain ⟨hanswers, hmirrors⟩ := hstart.performAll steps
    exact ⟨_, hmirrors.stream_eq, hanswers, hmirrors.holds.terminate⟩
  · intro text args
    obtain ⟨hresult, hmirrors⟩ := hstart.format .full text args
    refine ⟨_, hmirrors.stream_eq, hresult, ?_, hmirrors.holds.terminate⟩
    intro count hcount
    have hstream := hmirrors.stream_eq
    have hok := hresult.symm.trans hcount
    unfold Sink.format at hstream hok
    simp only at hstream hok
    cases hfailure : (FormattedOutput.format .full text args).failure with
    | none =>
      rw [hfailure] at hstream hok
      simp only at hstream hok
      rw [hstream] at hok
      exact (Except.ok.inj hok).symm
    | some error =>
      rw [hfailure] at hok
      contradiction

end FormattedOutput
