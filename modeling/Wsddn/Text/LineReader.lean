import Wsddn.Stream.Lines

/-!
# Reading lines with a bounded buffer (`LineReader` of `sys_util.h`)

The output of a subprocess is read into a buffer of `bufferSize` bytes, and every line that ends in
the buffer is given to the sink.  When the buffer is full of one line, it is emptied and the rest of
the line is ignored.

* `Cut` : the reads of a descriptor, each of which gives at most what was asked for.
* `ReadsUpTo` : what the reader holds after a part of the stream; kept by `iteration_readsUpTo`.
* `run_lines` : **the lines that fit**, in order, however the stream was cut.
-/

namespace Wsddn

namespace LineReader

/-- A line, without the newline. -/
abbrev Line := List UInt8

/-- `\n`. -/
def newline : UInt8 := 10

/-- The local variables of the loop, and the lines given to the sink. -/
structure State where
  buf : List UInt8 := []
  ignore : Bool := false
  sunk : List Line := []
  deriving DecidableEq

/-- `addition`, the number of bytes to read next. -/
def addition (bufferSize : ℕ) (s : State) : ℕ := min (bufferSize - s.buf.length) bufferSize

/-- The loop over the bytes in the buffer, with the bytes of the current line: the lines for the
sink, `ignore`, and the bytes that are left. -/
def processBuf : List UInt8 → Bool → List UInt8 → List Line × Bool × List UInt8
  | line, ignore, [] => ([], ignore, line)
  | line, ignore, b :: bytes =>
    if b = newline then
      let (sunk, rest) := processBuf [] false bytes
      (if ignore then sunk else line :: sunk, rest)
    else processBuf (line ++ [b]) ignore bytes

/-- One iteration, in which `readFile` gave the bytes `chunk`. -/
def iteration (bufferSize : ℕ) (s : State) (chunk : List UInt8) : State :=
  let (sunk, ignore, buf) := processBuf [] s.ignore (s.buf ++ chunk)
  let s := { s with buf, ignore, sunk := s.sunk ++ sunk }
  if s.buf.length = bufferSize then { s with ignore := true, buf := [] } else s

/-- After the loop. -/
def finish (s : State) : List Line :=
  if s.buf ≠ [] ∧ s.ignore = false then s.sunk ++ [s.buf] else s.sunk

/-- The reader on a list of reads: the lines given to the sink once it has returned, and the reads
that it has not made. -/
def run (bufferSize : ℕ) : State → List (List UInt8) → Option (List Line) × List (List UInt8)
  | _, [] => (none, [])
  | s, chunk :: reads =>
    let s := iteration bufferSize s chunk
    if chunk = [] then (some (finish s), reads) else run bufferSize s reads

/-- The state before a read. -/
def stateAfter (bufferSize : ℕ) (s : State) (reads : List (List UInt8)) : State :=
  reads.foldl (iteration bufferSize) s

/-- A stream in reads: each gives a byte at least, and as many as were asked for at most. -/
inductive Cut (bufferSize : ℕ) : State → List (List UInt8) → Prop
  | nil {s : State} : Cut bufferSize s []
  | cons {s : State} {chunk : List UInt8} {reads : List (List UInt8)} (hne : chunk ≠ [])
      (hle : chunk.length ≤ addition bufferSize s)
      (h : Cut bufferSize (iteration bufferSize s chunk) reads) :
      Cut bufferSize s (chunk :: reads)

/-- The lines that end in a stream. -/
def linesOf (stream : List UInt8) : List Line := Lines.ended newline [] stream

/-- The bytes after the last end of a line. -/
def lastOf (stream : List UInt8) : Line := Lines.unended newline [] stream

/-! ### The loop over the buffer -/

variable {bufferSize : ℕ} {s : State} {line bytes chunk stream : List UInt8} {ignore : Bool}
  {reads : List (List UInt8)}

theorem processBuf_false : processBuf line false bytes =
    (Lines.ended newline line bytes, false, Lines.unended newline line bytes) := by
  induction bytes generalizing line with
  | nil => rfl
  | cons b bytes ih =>
    by_cases h : b = newline
    · subst h
      simp [processBuf, ih]
    · simp [processBuf, h, ih]

/-- If the current line is ignored, the first end of a line ends this. -/
theorem processBuf_true : processBuf line true bytes =
    ((Lines.ended newline line bytes).tail, decide (Lines.ended newline line bytes = []),
      Lines.unended newline line bytes) := by
  induction bytes generalizing line with
  | nil => rfl
  | cons b bytes ih =>
    by_cases h : b = newline
    · subst h
      simp [processBuf, processBuf_false]
    · simp [processBuf, h, ih]

/-! ### One iteration -/

/-- What the reader holds after a part of the stream: the lines that fit have gone to the sink, and
the buffer has the line that has not ended, or, if it is ignored, the bytes of it that were read
after the buffer was full. -/
structure ReadsUpTo (bufferSize : ℕ) (stream : List UInt8) (s : State) : Prop where
  sunk : s.sunk = (linesOf stream).filter (·.length < bufferSize)
  buf_lt : s.buf.length < bufferSize
  kept : s.ignore = false → lastOf stream = s.buf
  dropped : s.ignore = true → ∃ d, lastOf stream = d ++ s.buf ∧ bufferSize ≤ d.length

theorem addition_eq : addition bufferSize s = bufferSize - s.buf.length :=
  Nat.min_eq_left (Nat.sub_le _ _)

theorem addition_pos (h : s.buf.length < bufferSize) : 0 < addition bufferSize s := by
  rw [addition_eq]
  omega

theorem readsUpTo_nil (hpos : 0 < bufferSize) : ReadsUpTo bufferSize [] {} where
  sunk := rfl
  buf_lt := hpos
  kept := fun _ => rfl
  dropped := fun h => nomatch h

/-- The line in the buffer has no end. -/
theorem ReadsUpTo.not_mem_buf (h : ReadsUpTo bufferSize stream s) : newline ∉ s.buf := by
  have hlast : newline ∉ lastOf stream := Lines.not_mem_unended List.not_mem_nil
  cases hi : s.ignore with
  | false => exact h.kept hi ▸ hlast
  | true =>
    obtain ⟨d, hd, -⟩ := h.dropped hi
    rw [hd] at hlast
    exact fun hm => hlast (List.mem_append_right d hm)

/-- The lines that go to the sink are the ones that end in the chunk and fit. -/
theorem ReadsUpTo.processBuf_eq (h : ReadsUpTo bufferSize stream s)
    (hle : chunk.length ≤ addition bufferSize s) :
    ∃ ignore, processBuf [] s.ignore (s.buf ++ chunk) =
        ((Lines.ended newline (lastOf stream) chunk).filter (·.length < bufferSize), ignore,
          Lines.unended newline s.buf chunk) ∧
      (ignore = false → lastOf (stream ++ chunk) = Lines.unended newline s.buf chunk) ∧
      (ignore = true → ∃ d, lastOf (stream ++ chunk) = d ++ Lines.unended newline s.buf chunk ∧
        bufferSize ≤ d.length) := by
  rw [addition_eq] at hle
  have hended : Lines.ended newline [] (s.buf ++ chunk) = Lines.ended newline s.buf chunk := by
    rw [Lines.ended_append, Lines.ended_of_not_mem h.not_mem_buf,
      Lines.unended_of_not_mem h.not_mem_buf, List.nil_append, List.nil_append]
  have hunended :
      Lines.unended newline [] (s.buf ++ chunk) = Lines.unended newline s.buf chunk := by
    rw [Lines.unended_append, Lines.unended_of_not_mem h.not_mem_buf, List.nil_append]
  have hshort : ∀ l ∈ Lines.ended newline s.buf chunk, l.length < bufferSize := fun l hl => by
    have := Lines.length_lt_of_mem_ended l hl
    have := h.buf_lt
    omega
  have hlast : lastOf (stream ++ chunk) = Lines.unended newline (lastOf stream) chunk :=
    Lines.unended_append
  cases hi : s.ignore with
  | false =>
    refine ⟨false, ?_, fun _ => ?_, fun hf => nomatch hf⟩
    · rw [processBuf_false, hended, hunended, h.kept hi,
        List.filter_eq_self.2 (by simpa using hshort)]
    · rw [hlast, h.kept hi]
  | true =>
    obtain ⟨d, hd, hlong⟩ := h.dropped hi
    rw [hd, Lines.unended_append_left] at hlast
    rw [processBuf_true, hended, hunended, hd, Lines.ended_append_left]
    rcases hlines : Lines.ended newline s.buf chunk with _ | ⟨l, ls⟩
    · -- the line that is ignored goes on
      refine ⟨true, by simp, fun hf => (nomatch hf), fun _ => ⟨d, ?_, hlong⟩⟩
      rw [hlast, if_pos hlines]
    · -- its end is in the chunk
      refine ⟨false, ?_, fun _ => ?_, fun hf => nomatch hf⟩
      · rw [hlines] at hshort
        have hfirst : ¬ decide ((d ++ l).length < bufferSize) = true := by
          simp only [List.length_append, decide_eq_true_eq]
          omega
        have hls : ls.filter (·.length < bufferSize) = ls :=
          List.filter_eq_self.2 fun l hl => by simpa using hshort l (List.mem_cons_of_mem _ hl)
        simp only [List.filter_cons, if_neg hfirst, hls, List.tail_cons, reduceCtorEq,
          decide_false]
      · rw [hlast, if_neg (by simp [hlines])]

/-- **One iteration** keeps what the reader holds. -/
theorem iteration_readsUpTo (h : ReadsUpTo bufferSize stream s)
    (hle : chunk.length ≤ addition bufferSize s) :
    ReadsUpTo bufferSize (stream ++ chunk) (iteration bufferSize s chunk) := by
  obtain ⟨ignore, hprocess, hkept, hdropped⟩ := h.processBuf_eq hle
  have hsunk :
      s.sunk ++ (Lines.ended newline (lastOf stream) chunk).filter (·.length < bufferSize) =
        (linesOf (stream ++ chunk)).filter (·.length < bufferSize) := by
    rw [h.sunk, ← List.filter_append]
    exact congrArg _ Lines.ended_append.symm
  have hbuf : (Lines.unended newline s.buf chunk).length ≤ bufferSize := by
    rw [addition_eq] at hle
    have : (Lines.unended newline s.buf chunk).length ≤ s.buf.length + chunk.length :=
      Lines.length_unended_le
    have := h.buf_lt
    omega
  have hpos : 0 < bufferSize := Nat.zero_lt_of_lt h.buf_lt
  unfold iteration
  rw [hprocess]
  dsimp only
  split_ifs with hfull
  · -- the buffer is full of one line
    refine ⟨hsunk, hpos, fun hf => absurd hf (by simp), fun _ => ?_⟩
    cases ignore with
    | false => exact ⟨_, by rw [hkept rfl, List.append_nil], Nat.le_of_eq hfull.symm⟩
    | true =>
      obtain ⟨d, hd, hlong⟩ := hdropped rfl
      refine ⟨d ++ Lines.unended newline s.buf chunk, by rw [hd, List.append_nil], ?_⟩
      simp only [List.length_append]
      omega
  · exact ⟨hsunk, by dsimp only at hfull ⊢; omega, hkept, hdropped⟩

/-! ### A run -/

/-- What the reader holds after some reads. -/
theorem stateAfter_readsUpTo (hc : Cut bufferSize s reads) (h : ReadsUpTo bufferSize stream s) :
    ReadsUpTo bufferSize (stream ++ reads.flatten) (stateAfter bufferSize s reads) := by
  induction hc generalizing stream with
  | nil => simpa [stateAfter] using h
  | cons _ hle _ ih => simpa [stateAfter] using ih (iteration_readsUpTo h hle)

theorem Cut.of_prefix {reads' : List (List UInt8)} (hc : Cut bufferSize s reads)
    (hpre : reads' <+: reads) : Cut bufferSize s reads' := by
  induction hc generalizing reads' with
  | nil => exact List.prefix_nil.1 hpre ▸ .nil
  | cons hne hle _ ih =>
    cases reads' with
    | nil => exact .nil
    | cons chunk reads' =>
      obtain ⟨rfl, hrest⟩ := List.cons_prefix_cons.1 hpre
      exact .cons hne hle (ih hrest)

/-- The loop ends with the first read that gives nothing. -/
theorem run_append_nil (hc : Cut bufferSize s reads) (later : List (List UInt8)) :
    run bufferSize s (reads ++ [] :: later) =
      (some (finish (iteration bufferSize (stateAfter bufferSize s reads) [])), later) := by
  induction hc with
  | nil => rfl
  | cons hne _ _ ih => simpa [run, hne, stateAfter] using ih

/-- What is given to the sink after the loop. -/
theorem ReadsUpTo.finish_eq (h : ReadsUpTo bufferSize stream s) :
    finish s = (linesOf stream).filter (·.length < bufferSize) ++
      if lastOf stream ≠ [] ∧ (lastOf stream).length < bufferSize then [lastOf stream] else [] := by
  unfold finish
  rw [h.sunk]
  cases hi : s.ignore with
  | false =>
    rw [h.kept hi]
    have := h.buf_lt
    by_cases hne : s.buf = [] <;> simp [hne, this]
  | true =>
    obtain ⟨d, hd, hlong⟩ := h.dropped hi
    have : ¬ (lastOf stream).length < bufferSize := by
      rw [hd, List.length_append]
      omega
    simp [this]

/-- **The lines that fit are given to the sink**, in order, and then the last one if it has no end,
whatever the sizes of the reads.  No read asks for nothing, and the first one that gives nothing
ends the loop. -/
theorem run_lines (hpos : 0 < bufferSize) (reads later : List (List UInt8))
    (hc : Cut bufferSize {} reads) :
    run bufferSize {} (reads ++ [] :: later) =
      (some ((linesOf reads.flatten).filter (·.length < bufferSize) ++
        if lastOf reads.flatten ≠ [] ∧ (lastOf reads.flatten).length < bufferSize then
          [lastOf reads.flatten] else []), later) ∧
    ∀ reads', reads' <+: reads → 0 < addition bufferSize (stateAfter bufferSize {} reads') := by
  refine ⟨?_, fun reads' hpre => ?_⟩
  · have h := stateAfter_readsUpTo hc (readsUpTo_nil hpos)
    have hlast : ReadsUpTo bufferSize ([] ++ reads.flatten ++ []) (iteration bufferSize _ []) :=
      iteration_readsUpTo h (Nat.zero_le _)
    rw [List.nil_append, List.append_nil] at hlast
    rw [run_append_nil hc, hlast.finish_eq]
  · have h := stateAfter_readsUpTo (hc.of_prefix hpre) (readsUpTo_nil hpos)
    exact addition_pos h.buf_lt

/-- A line of one byte, one that is too long, and one without an end, in reads of all sizes. -/
theorem run_lines_two :
    (run 2 {} [[97, 10], [98], [98], [10], [99], []]).1 = some [[97], [99]] := by
  have hc : Cut 2 {} [[97, 10], [98], [98], [10], [99]] :=
    .cons (by decide) (by decide) <| .cons (by decide) (by decide) <|
      .cons (by decide) (by decide) <| .cons (by decide) (by decide) <|
        .cons (by decide) (by decide) .nil
  exact (congrArg Prod.fst (run_lines (by decide) _ [] hc).1).trans (by decide)

end LineReader

end Wsddn
