import Halquen.Protocol.Frames

/-!
# Frames and the writes of the peer

A reader gathers what the stream hands out until a line feed comes. It reports bytes after the line
only if they arrive in the same read as the line feed; in a later read they are not looked at. So
the result is a matter of the bytes alone for a stream without a line within the limit, and for a
line that ends the stream (`segmentation_independent_iff`). For a line that is followed by more, it
is the peer's writes that decide between the frame and the error.
-/

set_option autoImplicit false

namespace Halquen.Protocol.Segmentations

open Halquen.Protocol.Frames

/-- The reads of a stream that ends after these chunks. -/
def untilEnd (chunks : List (List UInt8)) : List (Except String (List UInt8)) :=
  chunks.map .ok ++ [.ok []]

/-- Both readers give one result for all segmentations of the bytes. -/
def Independent (bytes : List UInt8) : Prop :=
  ∀ chunks chunks' : List (List UInt8), Segmentation bytes chunks → Segmentation bytes chunks' →
    Daemon.readFrame (untilEnd chunks) = Daemon.readFrame (untilEnd chunks') ∧
      Client.readFrame (untilEnd chunks) = Client.readFrame (untilEnd chunks')

/-- Nothing follows a line within the limit. -/
def Settled (bytes : List UInt8) : Prop :=
  ∀ payload rest : List UInt8, bytes = payload ++ lineFeed :: rest → lineFeed ∉ payload →
    payload.length + 1 ≤ maxFrameSize → rest = []

section Loop

variable {ε : Type} (errors : ReadErrors ε)

/-- What a stream gives that has nothing after its line. -/
def outcome (bytes : List UInt8) : Except ε (List UInt8) :=
  match bytes.findIdx? (· == lineFeed) with
  | some newline =>
      if maxFrameSize < newline + 1 then .error errors.frameTooLarge
      else .ok bytes
  | none =>
      if maxFrameSize < bytes.length then .error errors.frameTooLarge
      else .error errors.incompleteFrame

theorem findIdx?_first {payload rest : List UInt8} (h : lineFeed ∉ payload) :
    (payload ++ lineFeed :: rest).findIdx? (· == lineFeed) = some payload.length := by
  rw [List.findIdx?_append, findIdx?_of_not_mem h, List.findIdx?_cons]
  simp

/-- Reads without a line feed are gathered, up to the limit. -/
theorem readFrameWith_gather (more : List (Except String (List UInt8))) :
    ∀ (chunks : List (List UInt8)) (frame : List UInt8), (∀ chunk ∈ chunks, chunk ≠ []) →
      lineFeed ∉ chunks.flatten → frame.length ≤ maxFrameSize →
      readFrameWith errors frame (chunks.map .ok ++ more) =
        if maxFrameSize < frame.length + chunks.flatten.length then .error errors.frameTooLarge
        else readFrameWith errors (frame ++ chunks.flatten) more := by
  intro chunks
  induction chunks with
  | nil =>
      intro frame _ _ hframe
      rw [List.flatten_nil, List.append_nil, List.length_nil, Nat.add_zero,
        if_neg (Nat.not_lt_of_le hframe)]
      rfl
  | cons chunk chunks ih =>
      intro frame hnonempty hfeed hframe
      rw [List.flatten_cons, List.mem_append, not_or] at hfeed
      have hchunk : chunk.isEmpty = false := by
        simpa using hnonempty chunk List.mem_cons_self
      rw [List.map_cons, List.cons_append, readFrameWith, hchunk, findIdx?_of_not_mem hfeed.1,
        List.flatten_cons, List.length_append]
      by_cases hlong : maxFrameSize < frame.length + chunk.length
      · simp only [Bool.false_eq_true, if_false, if_pos hlong]
        rw [if_pos (by omega)]
      · simp only [Bool.false_eq_true, if_false, if_neg hlong]
        rw [ih (frame ++ chunk) (fun c hc => hnonempty c (List.mem_cons_of_mem chunk hc)) hfeed.2
          (by rw [List.length_append]; omega), List.length_append, List.append_assoc, Nat.add_assoc]

/-- The read with the line feed decides: what follows the line in it is trailing. -/
theorem readFrameWith_lineFeed {head : List UInt8} (hhead : lineFeed ∉ head)
    (frame tail : List UInt8) (more : List (Except String (List UInt8))) :
    readFrameWith errors frame (.ok (head ++ lineFeed :: tail) :: more) =
      if maxFrameSize < frame.length + (head.length + 1) then .error errors.frameTooLarge
      else if tail = [] then .ok (frame ++ (head ++ [lineFeed]))
      else .error errors.trailingBytes := by
  have hchunk : (head ++ lineFeed :: tail).isEmpty = false := by simp
  rw [readFrameWith, hchunk, findIdx?_first hhead]
  simp only [Bool.false_eq_true, if_false]
  by_cases hlong : maxFrameSize < frame.length + (head.length + 1)
  · rw [if_pos hlong, if_pos hlong]
  · rw [if_neg hlong, if_neg hlong]
    cases tail with
    | nil => simp
    | cons byte tail => simp

/-- A stream without a line feed is incomplete, or too large. -/
theorem readFrameWith_noLine {chunks : List (List UInt8)} (hnonempty : ∀ chunk ∈ chunks, chunk ≠ [])
    (hfeed : lineFeed ∉ chunks.flatten) :
    readFrameWith errors [] (untilEnd chunks) = outcome errors chunks.flatten := by
  rw [untilEnd, readFrameWith_gather errors _ chunks [] hnonempty hfeed (Nat.zero_le _), outcome,
    findIdx?_of_not_mem hfeed, List.length_nil, Nat.zero_add]
  rfl

/-- The read that ends a line, and the reads before it, of which the result is made. -/
theorem readFrameWith_split {front back : List (List UInt8)} {head tail : List UInt8}
    (hnonempty : ∀ chunk ∈ front, chunk ≠ []) (hfeed : lineFeed ∉ front.flatten ++ head) :
    readFrameWith errors [] (untilEnd (front ++ (head ++ lineFeed :: tail) :: back)) =
      if maxFrameSize < (front.flatten ++ head).length + 1 then .error errors.frameTooLarge
      else if tail = [] then .ok (front.flatten ++ head ++ [lineFeed])
      else .error errors.trailingBytes := by
  rw [List.mem_append, not_or] at hfeed
  rw [untilEnd, List.map_append, List.map_cons, List.append_assoc, List.cons_append,
    readFrameWith_gather errors _ front [] hnonempty hfeed.1 (Nat.zero_le _),
    readFrameWith_lineFeed errors hfeed.2, List.length_nil, Nat.zero_add, List.nil_append,
    List.length_append, List.append_assoc]
  by_cases hlong : maxFrameSize < front.flatten.length
  · rw [if_pos hlong, if_pos (by omega)]
  · rw [if_neg hlong]
    simp only [Nat.add_assoc]

/-- Some read brings the line feed. -/
theorem exists_split {chunks : List (List UInt8)} {payload rest : List UInt8}
    (h : chunks.flatten = payload ++ lineFeed :: rest) :
    ∃ front head tail back, chunks = front ++ (head ++ lineFeed :: tail) :: back ∧
      payload = front.flatten ++ head ∧ rest = tail ++ back.flatten := by
  rcases List.flatten_eq_append_iff.mp h with ⟨front, later, rfl, rfl, hlater⟩ |
    ⟨front, head, byte, tail, back, rfl, rfl, hback⟩
  · obtain ⟨blank, tail, back, rfl, hblank, rfl⟩ := List.flatten_eq_cons_iff.mp hlater.symm
    refine ⟨front ++ blank, [], tail, back, by simp, ?_, rfl⟩
    rw [List.flatten_append, List.flatten_eq_nil_iff.mpr hblank]
    simp
  · rw [List.cons_append, List.cons.injEq] at hback
    obtain ⟨rfl, rfl⟩ := hback
    exact ⟨front, head, tail, back, rfl, rfl, rfl⟩

/-- Of a settled stream every segmentation gives the same. -/
theorem readFrameWith_settled {bytes : List UInt8} (hsettled : Settled bytes)
    {chunks : List (List UInt8)} (h : Segmentation bytes chunks) :
    readFrameWith errors [] (untilEnd chunks) = outcome errors bytes := by
  obtain ⟨hnonempty, -, rfl⟩ := h
  by_cases hfeed : lineFeed ∈ chunks.flatten
  · obtain ⟨payload, rest, hline, hpayload⟩ := List.eq_append_cons_of_mem hfeed
    obtain ⟨front, head, tail, back, rfl, rfl, rfl⟩ := exists_split hline
    rw [readFrameWith_split errors (fun c hc => hnonempty c (List.mem_append_left _ hc)) hpayload,
      outcome, hline, findIdx?_first hpayload]
    by_cases hlong : maxFrameSize < (front.flatten ++ head).length + 1
    · simp only [if_pos hlong]
    · have hend := hsettled _ _ hline hpayload (Nat.le_of_not_lt hlong)
      obtain ⟨htail, hback⟩ := List.append_eq_nil_iff.mp hend
      simp only [if_neg hlong, htail, hback, if_true, List.nil_append]
  · exact readFrameWith_noLine errors hnonempty hfeed

/-- Every byte in a read of its own. -/
theorem segmentation_singletons (bytes : List UInt8) :
    Segmentation bytes (bytes.map fun byte => [byte]) where
  nonempty := by
    intro chunk hchunk
    obtain ⟨byte, -, rfl⟩ := List.mem_map.mp hchunk
    exact List.cons_ne_nil _ _
  bounded := by
    intro chunk hchunk
    obtain ⟨byte, -, rfl⟩ := List.mem_map.mp hchunk
    exact Nat.le_of_ble_eq_true rfl
  flatten_eq := by
    induction bytes with
    | nil => rfl
    | cons byte bytes ih => rw [List.map_cons, List.flatten_cons, ih, List.singleton_append]

end Loop

/-! ## Both readers -/

/-- The line feed alone in its read, or with the byte that follows it. -/
theorem segmentations_differ {ε : Type} (errors : ReadErrors ε) {payload : List UInt8}
    (hfeed : lineFeed ∉ payload) (hfits : payload.length + 1 ≤ maxFrameSize) (byte : UInt8)
    (rest : List UInt8) :
    ∃ chunks chunks', Segmentation (payload ++ lineFeed :: byte :: rest) chunks ∧
      Segmentation (payload ++ lineFeed :: byte :: rest) chunks' ∧
      readFrameWith errors [] (untilEnd chunks) = .ok (payload ++ [lineFeed]) ∧
      readFrameWith errors [] (untilEnd chunks') = .error errors.trailingBytes := by
  have hfront := segmentation_singletons payload
  have hback := segmentation_singletons rest
  -- The line alone in its read is accepted; with a byte behind it, it is not.
  have hsplit : ∀ tail : List UInt8, ∀ back : List (List UInt8),
      readFrameWith errors []
        (untilEnd (payload.map (fun b => [b]) ++ ([] ++ lineFeed :: tail) :: back)) =
        if tail = [] then .ok (payload ++ [lineFeed]) else .error errors.trailingBytes := by
    intro tail back
    have hfeed' : lineFeed ∉ (payload.map fun b => [b]).flatten ++ [] := by
      rwa [hfront.flatten_eq, List.append_nil]
    rw [readFrameWith_split errors hfront.nonempty hfeed', hfront.flatten_eq, List.append_nil,
      if_neg (Nat.not_lt_of_le hfits)]
  refine ⟨_, _, segmentation_singletons _, ⟨?_, ?_, ?_⟩, ?_, hsplit [byte] (rest.map fun b => [b])⟩
  -- The second segmentation has the line feed and the next byte in one read.
  · intro chunk hchunk
    rcases List.mem_append.mp hchunk with hchunk | hchunk
    · exact hfront.nonempty chunk hchunk
    · rcases List.mem_cons.mp hchunk with rfl | hchunk
      · exact List.cons_ne_nil _ _
      · exact hback.nonempty chunk hchunk
  · intro chunk hchunk
    rcases List.mem_append.mp hchunk with hchunk | hchunk
    · exact hfront.bounded chunk hchunk
    · rcases List.mem_cons.mp hchunk with rfl | hchunk
      · exact Nat.le_of_ble_eq_true rfl
      · exact hback.bounded chunk hchunk
  · rw [List.flatten_append, List.flatten_cons, hfront.flatten_eq, hback.flatten_eq]
    simp
  -- In the first one every byte comes alone.
  · have hsingle := hsplit [] ((byte :: rest).map fun b => [b])
    rw [if_pos rfl] at hsingle
    rw [List.map_append, List.map_cons]
    exact hsingle

/-- For every stream: the frame or the error is the same for all segmentations into reads of at most
1024 bytes exactly if nothing follows a line within the limit. What it is then, is read off the
bytes. -/
theorem segmentation_independent_iff (bytes : List UInt8) :
    (Independent bytes ↔ Settled bytes) ∧
      (Settled bytes → ∀ chunks, Segmentation bytes chunks →
        Daemon.readFrame (untilEnd chunks) =
            outcome ⟨.io, .incompleteFrame, .frameTooLarge, .trailingBytes⟩ bytes ∧
          Client.readFrame (untilEnd chunks) =
            outcome ⟨.io, .incompleteFrame, .frameTooLarge, .trailingBytes⟩ bytes) := by
  have hsettled : Settled bytes → ∀ chunks, Segmentation bytes chunks →
      Daemon.readFrame (untilEnd chunks) =
          outcome ⟨.io, .incompleteFrame, .frameTooLarge, .trailingBytes⟩ bytes ∧
        Client.readFrame (untilEnd chunks) =
          outcome ⟨.io, .incompleteFrame, .frameTooLarge, .trailingBytes⟩ bytes :=
    fun h chunks hchunks => ⟨readFrameWith_settled _ h hchunks, readFrameWith_settled _ h hchunks⟩
  refine ⟨⟨fun hindependent => ?_, fun h chunks chunks' hchunks hchunks' => ?_⟩, hsettled⟩
  · intro payload rest hline hfeed hfits
    cases rest with
    | nil => rfl
    | cons byte rest =>
        rw [hline] at hindependent
        obtain ⟨chunks, chunks', hchunks, hchunks', hframe, htrailing⟩ :=
          segmentations_differ ⟨DaemonError.io, .incompleteFrame, .frameTooLarge, .trailingBytes⟩
            hfeed hfits byte rest
        have hsame := (hindependent chunks chunks' hchunks hchunks').1
        have hresult := hframe.symm.trans (hsame.trans htrailing)
        cases hresult
  · obtain ⟨hdaemon, hclient⟩ := hsettled h chunks hchunks
    obtain ⟨hdaemon', hclient'⟩ := hsettled h chunks' hchunks'
    exact ⟨hdaemon.trans hdaemon'.symm, hclient.trans hclient'.symm⟩

/-- Two frames at once, of which the second is reported or not looked at. -/
theorem two_frames : ¬ ∀ bytes : List UInt8, Independent bytes := by
  intro h
  obtain ⟨hsame, -⟩ := h (asciiBytes "\x7b\x7d\n\x7b\x7d\n")
    [asciiBytes "\x7b\x7d\n", asciiBytes "\x7b\x7d\n"] [asciiBytes "\x7b\x7d\n\x7b\x7d\n"]
    ⟨by decide, by decide, by decide⟩
    ⟨by decide, by decide, by decide⟩
  have hframe : Daemon.readFrame (untilEnd [asciiBytes "\x7b\x7d\n", asciiBytes "\x7b\x7d\n"]) =
      .ok (asciiBytes "\x7b\x7d\n") := by
    decide
  have htrailing : Daemon.readFrame (untilEnd [asciiBytes "\x7b\x7d\n\x7b\x7d\n"]) =
      .error .trailingBytes := by
    decide
  rw [hframe, htrailing] at hsame
  cases hsame

end Halquen.Protocol.Segmentations
