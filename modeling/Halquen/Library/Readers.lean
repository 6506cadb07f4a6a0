import Mathlib.Algebra.GroupWithZero.Nat
import Mathlib.Data.List.Basic

/-!
# Readers with a limit

A stream hands out its content in pieces. A reader over it takes no more than a given number of
bytes, after which it reports the end, and is read up to a delimiter or to the end. What such a
reader promises is stated without the pieces, by what lies ahead of it, what it has drawn from the
stream and what it may still draw (`LimitedReaders.Lawful`). A reader with a buffer keeps the
promise however the stream is cut (`buffered_lawful`).
-/

set_option autoImplicit false

namespace Halquen.Library.Readers

section Delimiter

variable {α : Type} [DecidableEq α] (delimiter : α)

/-- Up to the first delimiter, and with it. Without a delimiter it is everything. -/
def upTo : List α → List α
  | [] => []
  | a :: as => if a = delimiter then [a] else a :: upTo as

@[simp]
theorem upTo_nil : upTo delimiter [] = [] := rfl

/-- The text is the line and what comes after it. -/
theorem upTo_append_drop (as : List α) :
    upTo delimiter as ++ as.drop (upTo delimiter as).length = as := by
  induction as with
  | nil => rfl
  | cons a as ih =>
      unfold upTo
      split
      · rfl
      · rw [List.length_cons, List.drop_succ_cons, List.cons_append, ih]

theorem length_upTo_le (as : List α) : (upTo delimiter as).length ≤ as.length := by
  have hlength := congrArg List.length (upTo_append_drop delimiter as)
  rw [List.length_append] at hlength
  omega

theorem upTo_eq_nil_iff (as : List α) : upTo delimiter as = [] ↔ as = [] := by
  cases as with
  | nil => simp
  | cons a as =>
      unfold upTo
      split
      · simp
      · simp

variable {delimiter} in
/-- A piece without delimiter is part of the line. -/
theorem upTo_append_of_notMem {before : List α} (h : delimiter ∉ before) (after : List α) :
    upTo delimiter (before ++ after) = before ++ upTo delimiter after := by
  induction before with
  | nil => rfl
  | cons a before ih =>
      rw [List.mem_cons, not_or] at h
      rw [List.cons_append, upTo, if_neg (Ne.symm h.1), ih h.2, List.cons_append]

variable {delimiter} in
/-- A delimiter ends the line. -/
theorem upTo_append_of_mem {before : List α} (h : delimiter ∈ before) (after : List α) :
    upTo delimiter (before ++ after) = upTo delimiter before := by
  induction before with
  | nil => cases h
  | cons a before ih =>
      rw [List.cons_append, upTo, upTo]
      split
      · rfl
      · rename_i hother
        rw [ih ((List.mem_cons.mp h).resolve_left (Ne.symm hother))]

/-- Cutting the stream cuts the line. -/
theorem upTo_take (as : List α) (n : Nat) :
    upTo delimiter (as.take n) = (upTo delimiter as).take n := by
  induction as generalizing n with
  | nil => simp
  | cons a as ih =>
      cases n with
      | zero => rfl
      | succ n =>
          rw [List.take_succ_cons, upTo, upTo]
          split
          · rw [List.take_succ_cons, List.take_nil]
          · rw [List.take_succ_cons, ih]

end Delimiter

/-! ## What readers promise -/

/-- Readers over streams of these bytes. -/
structure LimitedReaders (α : Type) where
  Reader : Type
  /-- A reader of at most so many bytes of a stream that hands out these pieces. -/
  limited : Nat → List (List α) → Reader
  readUntil : α → Reader → List α × Reader
  readToEnd : Reader → List α × Reader
  /-- After a read that failed or was given up. -/
  abandoned : Reader → Reader
  /-- What is still read before the end is reported. -/
  ahead : Reader → List α
  /-- How many bytes have been taken from the stream. -/
  drawn : Reader → Nat
  /-- How many more bytes may be taken from the stream. -/
  limit : Reader → Nat

/-- What is documented of a reader with a limit. -/
structure LimitedReaders.Lawful {α : Type} [DecidableEq α] (R : LimitedReaders α) : Prop where
  ahead_limited : ∀ n pieces, R.ahead (R.limited n pieces) = pieces.flatten.take n
  drawn_limited : ∀ n pieces, R.drawn (R.limited n pieces) = 0
  limit_limited : ∀ n pieces, R.limit (R.limited n pieces) = n
  readUntil_fst : ∀ delimiter r, (R.readUntil delimiter r).1 = upTo delimiter (R.ahead r)
  ahead_readUntil : ∀ delimiter r, R.ahead (R.readUntil delimiter r).2 =
    (R.ahead r).drop (upTo delimiter (R.ahead r)).length
  readToEnd_fst : ∀ r, (R.readToEnd r).1 = R.ahead r
  /-- A byte that is taken from the stream counts against the limit. -/
  counted_readUntil : ∀ delimiter r, R.drawn (R.readUntil delimiter r).2 +
    R.limit (R.readUntil delimiter r).2 = R.drawn r + R.limit r
  counted_readToEnd : ∀ r, R.drawn (R.readToEnd r).2 + R.limit (R.readToEnd r).2 =
    R.drawn r + R.limit r
  counted_abandoned : ∀ r, R.drawn (R.abandoned r) + R.limit (R.abandoned r) =
    R.drawn r + R.limit r

/-! ## A reader with a buffer -/

section Buffered

variable {α : Type}

/-- One read of the stream, of at most `n` bytes. It comes from one piece. -/
def fetch (n : Nat) : List (List α) → List α × List (List α)
  | [] => ([], [])
  | [] :: pieces => fetch n pieces
  | (a :: piece) :: pieces => ((a :: piece).take n, (a :: piece).drop n :: pieces)

/-- A read loses nothing. -/
theorem fetch_append (n : Nat) (pieces : List (List α)) :
    (fetch n pieces).1 ++ (fetch n pieces).2.flatten = pieces.flatten := by
  induction pieces with
  | nil => rfl
  | cons piece pieces ih =>
      cases piece with
      | nil => exact ih
      | cons a piece =>
          rw [fetch, List.flatten_cons, ← List.append_assoc, List.take_append_drop,
            List.flatten_cons]

/-- A read returns no more than it is asked for. -/
theorem length_fetch_le (n : Nat) (pieces : List (List α)) : (fetch n pieces).1.length ≤ n := by
  induction pieces with
  | nil => exact Nat.zero_le n
  | cons piece pieces ih =>
      cases piece with
      | nil => exact ih
      | cons a piece => exact List.length_take_le _ _

/-- A read of some bytes returns nothing only at the end of the stream. -/
theorem fetch_eq_nil {n : Nat} (hn : 0 < n) {pieces : List (List α)}
    (h : (fetch n pieces).1 = []) : pieces.flatten = [] := by
  induction pieces with
  | nil => rfl
  | cons piece pieces ih =>
      cases piece with
      | nil => exact ih h
      | cons a piece =>
          rw [fetch, List.take_eq_nil_iff] at h
          rcases h with hzero | hnil
          · omega
          · cases hnil

/-- A buffer, the stream behind it, and the bounds on what is taken from the stream. -/
structure BufReader (α : Type) where
  buffer : List α
  pieces : List (List α)
  limit : Nat
  drawn : Nat

/-- The reader with another buffer. -/
def BufReader.withBuffer (r : BufReader α) (buffer : List α) : BufReader α := { r with buffer }

/-- All that can still be read. -/
def BufReader.ahead (r : BufReader α) : List α := r.buffer ++ r.pieces.flatten.take r.limit

/-- A read of the stream, if the buffer is empty. Within the limit, it fills the buffer at most. -/
def BufReader.fill (capacity : Nat) (r : BufReader α) : BufReader α :=
  if r.buffer = [] then
    let read := fetch (min capacity r.limit) r.pieces
    { buffer := read.1, pieces := read.2, limit := r.limit - read.1.length
      drawn := r.drawn + read.1.length }
  else
    r

section

variable (capacity : Nat) (r : BufReader α)

/-- Filling the buffer changes nothing of what can be read. -/
@[simp]
theorem ahead_fill : (r.fill capacity).ahead = r.ahead := by
  unfold BufReader.fill
  split
  · rename_i hempty
    have hsplit := fetch_append (min capacity r.limit) r.pieces
    have hle := length_fetch_le (min capacity r.limit) r.pieces
    have hfit : (fetch (min capacity r.limit) r.pieces).1.length ≤ r.limit :=
      Nat.le_trans hle (Nat.min_le_right _ _)
    rw [BufReader.ahead, BufReader.ahead, hempty, List.nil_append]
    conv => rhs; rw [← hsplit]
    rw [List.take_append, List.take_of_length_le hfit]
  · rfl

/-- Filling the buffer counts against the limit. -/
@[simp]
theorem counted_fill : (r.fill capacity).drawn + (r.fill capacity).limit = r.drawn + r.limit := by
  unfold BufReader.fill
  split
  · have hle := length_fetch_le (min capacity r.limit) r.pieces
    have hmin := Nat.min_le_right capacity r.limit
    show r.drawn + _ + (r.limit - _) = _
    omega
  · rfl

/-- The buffer stays empty only if nothing lies ahead. -/
theorem ahead_of_buffer_fill [NeZero capacity] (h : (r.fill capacity).buffer = []) :
    r.ahead = [] := by
  unfold BufReader.fill at h
  split at h
  · rename_i hempty
    rw [BufReader.ahead, hempty, List.nil_append]
    by_cases hlimit : r.limit = 0
    · rw [hlimit, List.take_zero]
    · have hpos : 0 < min capacity r.limit :=
        Nat.lt_min.mpr ⟨Nat.pos_of_neZero capacity, Nat.pos_of_ne_zero hlimit⟩
      rw [fetch_eq_nil hpos h, List.take_nil]
  · rename_i hfull
    exact absurd h hfull

/-- Giving the whole buffer away brings the end closer. -/
theorem length_ahead_emptied (h : (r.fill capacity).buffer ≠ []) :
    ((r.fill capacity).withBuffer []).ahead.length < r.ahead.length := by
  have hemptied : ((r.fill capacity).withBuffer []).ahead =
      (r.fill capacity).pieces.flatten.take (r.fill capacity).limit := rfl
  have hpos := List.length_pos_of_ne_nil h
  rw [← ahead_fill capacity r, hemptied, BufReader.ahead, List.length_append]
  omega

end

variable (capacity : Nat)

/-- `read_until`: what comes up to the delimiter, with it, or all that is left. -/
def BufReader.readUntil [DecidableEq α] (delimiter : α) (r : BufReader α) : List α × BufReader α :=
  if _h : (r.fill capacity).buffer = [] then
    ([], r.fill capacity)
  else if delimiter ∈ (r.fill capacity).buffer then
    (upTo delimiter (r.fill capacity).buffer, (r.fill capacity).withBuffer
      ((r.fill capacity).buffer.drop (upTo delimiter (r.fill capacity).buffer).length))
  else
    ((r.fill capacity).buffer ++ (readUntil delimiter ((r.fill capacity).withBuffer [])).1,
      (readUntil delimiter ((r.fill capacity).withBuffer [])).2)
  termination_by r.ahead.length
  decreasing_by exact length_ahead_emptied capacity r _h

/-- `read_to_end`: all that is left. -/
def BufReader.readToEnd (r : BufReader α) : List α × BufReader α :=
  if _h : (r.fill capacity).buffer = [] then
    ([], r.fill capacity)
  else
    ((r.fill capacity).buffer ++ (readToEnd ((r.fill capacity).withBuffer [])).1,
      (readToEnd ((r.fill capacity).withBuffer [])).2)
  termination_by r.ahead.length
  decreasing_by exact length_ahead_emptied capacity r _h

section

variable [NeZero capacity] (r : BufReader α)

/-- The promise of a read up to a delimiter, with everything that it leaves behind. -/
theorem readUntil_spec [DecidableEq α] (delimiter : α) :
    (r.readUntil capacity delimiter).1 = upTo delimiter r.ahead ∧
      (r.readUntil capacity delimiter).2.ahead =
        r.ahead.drop (upTo delimiter r.ahead).length ∧
      (r.readUntil capacity delimiter).2.drawn + (r.readUntil capacity delimiter).2.limit =
        r.drawn + r.limit := by
  induction r using BufReader.readUntil.induct capacity delimiter with
  -- The stream is at its end.
  | case1 r hend =>
      have hahead := ahead_of_buffer_fill capacity r hend
      rw [BufReader.readUntil, dif_pos hend, ahead_fill, counted_fill, hahead]
      exact ⟨rfl, rfl, rfl⟩
  -- The delimiter is in the buffer, so what is returned ends within it.
  | case2 r hbuffer hline =>
      have hsplit : r.ahead = (r.fill capacity).buffer ++
          (r.fill capacity).pieces.flatten.take (r.fill capacity).limit :=
        (ahead_fill capacity r).symm
      rw [BufReader.readUntil, dif_neg hbuffer, if_pos hline]
      rw [hsplit, upTo_append_of_mem hline]
      refine ⟨rfl, ?_, counted_fill capacity r⟩
      rw [List.drop_append_of_le_length (length_upTo_le _ _)]
      rfl
  -- The whole buffer is taken, and reading goes on behind it.
  | case3 r hbuffer hline ih =>
      have hsplit : r.ahead = (r.fill capacity).buffer ++
          ((r.fill capacity).withBuffer []).ahead :=
        (ahead_fill capacity r).symm
      obtain ⟨hread, hahead, hcounted⟩ := ih
      rw [BufReader.readUntil, dif_neg hbuffer, if_neg hline]
      rw [hsplit, upTo_append_of_notMem hline]
      refine ⟨?_, ?_, hcounted.trans (counted_fill capacity r)⟩
      · rw [hread]
      · rw [List.length_append, List.drop_append, List.drop_of_length_le (Nat.le_add_right _ _),
          List.nil_append, Nat.add_sub_cancel_left]
        exact hahead

/-- All that is ahead is read, and counted. -/
theorem readToEnd_spec :
    (r.readToEnd capacity).1 = r.ahead ∧
      (r.readToEnd capacity).2.drawn + (r.readToEnd capacity).2.limit = r.drawn + r.limit := by
  induction r using BufReader.readToEnd.induct capacity with
  | case1 r hend =>
      have hahead := ahead_of_buffer_fill capacity r hend
      rw [BufReader.readToEnd, dif_pos hend, counted_fill, hahead]
      exact ⟨rfl, rfl⟩
  | case2 r hbuffer ih =>
      have hsplit : r.ahead = (r.fill capacity).buffer ++
          ((r.fill capacity).withBuffer []).ahead :=
        (ahead_fill capacity r).symm
      obtain ⟨hread, hcounted⟩ := ih
      rw [BufReader.readToEnd, dif_neg hbuffer, hsplit]
      exact ⟨congrArg _ hread, hcounted.trans (counted_fill capacity r)⟩

end

/-- Readers with a buffer of this size. -/
def buffered [DecidableEq α] : LimitedReaders α where
  Reader := BufReader α
  limited n pieces := ⟨[], pieces, n, 0⟩
  readUntil := BufReader.readUntil capacity
  readToEnd := BufReader.readToEnd capacity
  abandoned := BufReader.fill capacity
  ahead := BufReader.ahead
  drawn := BufReader.drawn
  limit := BufReader.limit

/-- The reader with a buffer is as documented. -/
theorem buffered_lawful [DecidableEq α] [NeZero capacity] :
    (buffered capacity : LimitedReaders α).Lawful where
  ahead_limited _ _ := rfl
  drawn_limited _ _ := rfl
  limit_limited _ _ := rfl
  readUntil_fst delimiter r := (readUntil_spec capacity r delimiter).1
  ahead_readUntil delimiter r := (readUntil_spec capacity r delimiter).2.1
  readToEnd_fst r := (readToEnd_spec capacity r).1
  counted_readUntil delimiter r := (readUntil_spec capacity r delimiter).2.2
  counted_readToEnd r := (readToEnd_spec capacity r).2
  counted_abandoned r := counted_fill capacity r

end Buffered

end Halquen.Library.Readers
