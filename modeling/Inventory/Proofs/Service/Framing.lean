import Inventory.Service.Frame
import Mathlib.Data.List.Basic

/-! # Streams of frames

Messages that were written are read back one by one, whatever follows them, up to the first one that is longer
than a reader takes (`Frame.reads_written`). Of a stream that is cut short the messages that stand in it whole
are read (`Frame.read_truncated`). What is left is a fault if the cut is within a message. A cut within a length
is not told from the end of the stream (`Frame.read_cut_length`).
-/

namespace Inventory

namespace Outlet

/-- Writes the frames of messages one after the other, up to the first fault. -/
def writeMessages (o : Outlet) : List Bytes → Outlet × Except FrameFault Unit
  | [] => (o, .ok ())
  | message :: messages =>
    match o.writeMessage message with
    | (o, .ok ()) => o.writeMessages messages
    | (o, .error fault) => (o, .error fault)

end Outlet

namespace Frame

variable {limit : Nat} {message : Bytes} {messages : List Bytes}

def frames (messages : List Bytes) : Bytes :=
  messages.flatMap encode

/-- Messages that are read one after the other, and what is then left of the stream. -/
inductive Reads (limit : Nat) : Bytes → List Bytes → Bytes → Prop where
  | nil (stream : Bytes) : Reads limit stream [] stream
  | cons {stream behind rest message : Bytes} {messages : List Bytes}
      (first : read limit stream = (.ok (some message), behind)) (others : Reads limit behind messages rest) :
      Reads limit stream (message :: messages) rest

@[simp] theorem frames_nil : frames [] = [] := rfl

@[simp] theorem frames_cons (message : Bytes) (messages : List Bytes) :
    frames (message :: messages) = encode message ++ frames messages := rfl

theorem frames_append (before after : List Bytes) : frames (before ++ after) = frames before ++ frames after :=
  List.flatMap_append

theorem read_of_lt {stream : Bytes} (h : stream.length < lengthWidth) : read limit stream = (.ok none, []) := by
  rw [read, takeBytes?_of_lt h]

theorem takeBytes?_length_append (length : Nat) (rest : Bytes) :
    takeBytes? lengthWidth (bigEndian lengthWidth length ++ rest) =
      some (bigEndian lengthWidth length, rest) := by
  have hfront := takeBytes?_append (bigEndian lengthWidth length) rest
  rwa [length_bigEndian] at hfront

theorem read_length_append_of_lt {length : Nat} (hshort : length < byteRange lengthWidth)
    (hlong : limit < length) (rest : Bytes) :
    read limit (bigEndian lengthWidth length ++ rest) = (.error (.tooLarge length limit), rest) := by
  rw [read, takeBytes?_length_append]
  dsimp only
  rw [ofBigEndian_bigEndian hshort, if_pos hlong]

theorem read_length_append_of_le {length : Nat} (hshort : length < byteRange lengthWidth)
    (hlimit : length ≤ limit) {rest : Bytes} (hcut : rest.length < length) :
    read limit (bigEndian lengthWidth length ++ rest) = (.error .cutShort, []) := by
  rw [read, takeBytes?_length_append]
  dsimp only
  rw [ofBigEndian_bigEndian hshort, if_neg (Nat.not_lt.2 hlimit), takeBytes?_of_lt hcut]

theorem read_encode_append (hshort : message.length < byteRange lengthWidth) (hlimit : message.length ≤ limit)
    (rest : Bytes) : read limit (encode message ++ rest) = (.ok (some message), rest) := by
  rw [encode, List.append_assoc, read, takeBytes?_length_append]
  dsimp only
  rw [ofBigEndian_bigEndian hshort, if_neg (Nat.not_lt.2 hlimit), takeBytes?_append]

theorem exists_first_long (h : ∃ message ∈ messages, limit < message.length) :
    ∃ before long after, messages = before ++ long :: after ∧ limit < long.length ∧
      ∀ message ∈ before, message.length ≤ limit := by
  have hfound : (messages.find? fun message => limit < message.length).isSome := by
    simpa only [List.find?_isSome, decide_eq_true_eq] using h
  obtain ⟨long, hlong⟩ := Option.isSome_iff_exists.1 hfound
  obtain ⟨hlt, before, after, hsplit, hbefore⟩ := List.find?_eq_some_iff_append.1 hlong
  refine ⟨before, long, after, hsplit, of_decide_eq_true hlt, ?_⟩
  intro message hmessage
  simpa using hbefore message hmessage

theorem Reads.append_frames (hshort : ∀ message ∈ messages, message.length < byteRange lengthWidth)
    (hlimit : ∀ message ∈ messages, message.length ≤ limit) (rest : Bytes) :
    Reads limit (frames messages ++ rest) messages rest := by
  induction messages with
  | nil => exact .nil rest
  | cons message messages ih =>
    rw [List.forall_mem_cons] at hshort hlimit
    rw [frames_cons, List.append_assoc]
    exact .cons (read_encode_append hshort.1 hlimit.1 _) (ih hshort.2 hlimit.2)

end Frame

namespace Outlet

theorem writeMessages_eq {messages : List Bytes}
    (hshort : ∀ message ∈ messages, message.length < byteRange Frame.lengthWidth) (written : Bytes) :
    writeMessages ⟨written, none⟩ messages = (⟨written ++ Frame.frames messages, none⟩, .ok ()) := by
  induction messages generalizing written with
  | nil => rw [writeMessages, Frame.frames_nil, List.append_nil]
  | cons message messages ih =>
    rw [List.forall_mem_cons] at hshort
    have hwrite : writeMessage ⟨written, none⟩ message = (⟨written ++ Frame.encode message, none⟩, .ok ()) :=
      if_pos hshort.1
    rw [writeMessages, hwrite, Frame.frames_cons, ← List.append_assoc]
    exact ih hshort.2 _

end Outlet

namespace Frame

/-- What was written is read back in order, and just what follows it is left. Where a message is longer than the
limit, those before the first such message are read, and its length is refused before its first byte is read. -/
theorem reads_written (limit : Nat) (messages : List Bytes) (rest : Bytes)
    (hshort : ∀ message ∈ messages, message.length < byteRange lengthWidth) :
    (Outlet.ofRoom none).writeMessages messages = (⟨frames messages, none⟩, .ok ()) ∧
    ((∀ message ∈ messages, message.length ≤ limit) →
      Reads limit (frames messages ++ rest) messages rest ∧ (rest = [] → read limit rest = (.ok none, []))) ∧
    ((∃ message ∈ messages, limit < message.length) →
      ∃ before long after, messages = before ++ long :: after ∧ limit < long.length ∧
        Reads limit (frames messages ++ rest) before (encode long ++ (frames after ++ rest)) ∧
        read limit (encode long ++ (frames after ++ rest)) =
          (.error (.tooLarge long.length limit), long ++ (frames after ++ rest)) ∧
        (FrameFault.tooLarge long.length limit).kind = .invalidData) := by
  refine ⟨Outlet.writeMessages_eq hshort [], ?_, ?_⟩
  · intro hlimit
    refine ⟨.append_frames hshort hlimit rest, ?_⟩
    rintro rfl
    exact read_of_lt (by decide)
  · intro hlong
    obtain ⟨before, long, after, rfl, hlt, hbefore⟩ := exists_first_long hlong
    simp only [List.forall_mem_append, List.forall_mem_cons] at hshort
    refine ⟨before, long, after, rfl, hlt, ?_, ?_, rfl⟩
    · rw [frames_append, frames_cons, List.append_assoc, List.append_assoc]
      exact .append_frames hshort.1 hbefore _
    · rw [encode, List.append_assoc]
      exact read_length_append_of_lt hshort.2.1 hlt _

def fourMessages : List Bytes :=
  [[7, 8], [], [1, 2, 3, 4], [9]]

theorem reads_written_four :
    Reads 4 ([0, 0, 0, 2, 7, 8, 0, 0, 0, 0, 0, 0, 0, 4, 1, 2, 3, 4, 0, 0, 0, 1, 9] ++ [0, 0]) fourMessages
      [0, 0] ∧
    ∃ before long after, fourMessages = before ++ long :: after ∧ 3 < long.length ∧
      read 3 (encode long ++ (frames after ++ [0, 0])) =
        (.error (.tooLarge long.length 3), long ++ (frames after ++ [0, 0])) := by
  have hshort : ∀ message ∈ fourMessages, message.length < byteRange lengthWidth := by decide
  obtain ⟨-, hfits, -⟩ := reads_written 4 fourMessages [0, 0] hshort
  obtain ⟨-, -, hexceeds⟩ := reads_written 3 fourMessages [0, 0] hshort
  obtain ⟨before, long, after, hsplit, hlong, -, hread, -⟩ := hexceeds (by decide)
  exact ⟨(hfits (by decide)).1, before, long, after, hsplit, hlong, hread⟩

/-- What a cut leaves of a frame: less than the whole of it, and nothing if the cut is before it. -/
structure Remnant (message part : Bytes) : Prop where
  isPrefix : part <+: encode message
  ne : part ≠ encode message

theorem prefix_append_iff {piece front behind : Bytes} :
    piece <+: front ++ behind ↔
      (piece <+: front ∧ piece ≠ front) ∨ ∃ part, piece = front ++ part ∧ part <+: behind := by
  constructor
  · rintro ⟨lost, hlost⟩
    rcases List.append_eq_append_iff.1 hlost with ⟨part, hfront, -⟩ | ⟨part, hpiece, hbehind⟩
    · rcases eq_or_ne piece front with rfl | hne
      · exact .inr ⟨[], (List.append_nil _).symm, List.nil_prefix⟩
      · exact .inl ⟨⟨part, hfront.symm⟩, hne⟩
    · exact .inr ⟨part, hpiece, lost, hbehind.symm⟩
  · rintro (⟨hpiece, -⟩ | ⟨part, rfl, hpart⟩)
    · exact hpiece.trans (List.prefix_append _ _)
    · exact List.prefix_append_right_inj front |>.2 hpart

theorem exists_remnant {piece : Bytes} (h : piece <+: frames messages) (hne : piece ≠ frames messages) :
    ∃ before message after part, messages = before ++ message :: after ∧ piece = frames before ++ part ∧
      Remnant message part := by
  induction messages generalizing piece with
  | nil => exact absurd (List.prefix_nil.1 h) hne
  | cons message messages ih =>
    -- Either the cut is within the first frame, or that frame is whole and the cut is behind it.
    rcases prefix_append_iff.1 h with ⟨hpiece, hne⟩ | ⟨part, rfl, hpart⟩
    · exact ⟨[], message, messages, piece, rfl, rfl, hpiece, hne⟩
    · have hcut : part ≠ frames messages := fun heq => hne (heq ▸ rfl)
      obtain ⟨before, cut, after, part, rfl, rfl, hremnant⟩ := ih hpart hcut
      exact ⟨message :: before, cut, after, part, rfl, (List.append_assoc _ _ _).symm, hremnant⟩

theorem Remnant.read_eq {part : Bytes} (h : Remnant message part)
    (hshort : message.length < byteRange lengthWidth) (hlimit : message.length ≤ limit) :
    read limit part = (if part.length < lengthWidth then .ok none else .error .cutShort, []) := by
  rcases prefix_append_iff.1 h.isPrefix with ⟨hfront, hne⟩ | ⟨body, rfl, hbody⟩
  · have hlt : part.length < lengthWidth := by
      rw [← length_bigEndian lengthWidth message.length]
      exact Nat.lt_of_le_of_ne hfront.length_le fun heq => hne (hfront.eq_of_length heq)
    rw [read_of_lt hlt, if_pos hlt]
  · have hlt : body.length < message.length :=
      Nat.lt_of_le_of_ne hbody.length_le fun heq => h.ne (congrArg _ (hbody.eq_of_length heq))
    rw [read_length_append_of_le hshort hlimit hlt, if_neg]
    rw [List.length_append, length_bigEndian]
    omega

/-- Of a stream that was cut anywhere the whole messages are read. Then the end of the stream and a fault are
told apart just where the cut is between two frames or behind a length. -/
theorem read_truncated (limit : Nat) (messages : List Bytes) (piece : Bytes)
    (hshort : ∀ message ∈ messages, message.length < byteRange lengthWidth)
    (hlimit : ∀ message ∈ messages, message.length ≤ limit) (hpiece : piece <+: frames messages)
    (hcut : piece ≠ frames messages) :
    ∃ before message after part, messages = before ++ message :: after ∧ piece = frames before ++ part ∧
      Remnant message part ∧ Reads limit piece before part ∧
      read limit part = (if part.length < lengthWidth then .ok none else .error .cutShort, []) ∧
      (((read limit part).1 = .ok none ↔ part = []) ↔ part = [] ∨ lengthWidth ≤ part.length) := by
  obtain ⟨before, message, after, part, rfl, rfl, hremnant⟩ := exists_remnant hpiece hcut
  simp only [List.forall_mem_append, List.forall_mem_cons] at hshort hlimit
  have hread := hremnant.read_eq hshort.2.1 hlimit.2.1
  refine ⟨before, message, after, part, rfl, rfl, hremnant, .append_frames hshort.1 hlimit.1 part, hread, ?_⟩
  rw [hread]
  rcases Nat.lt_or_ge part.length lengthWidth with hlt | hge
  · simp [hlt, Nat.not_le.2 hlt]
  · have hne : part ≠ [] := by
      rintro rfl
      exact absurd hge (by decide)
    simp [Nat.not_lt.2 hge, hge, hne]

theorem read_truncated_body :
    ∃ before message after part, fourMessages = before ++ message :: after ∧
      [0, 0, 0, 2, 7, 8, 0, 0, 0, 0, 0, 0, 0, 4, 1] = frames before ++ part ∧ Remnant message part ∧
      Reads 4 [0, 0, 0, 2, 7, 8, 0, 0, 0, 0, 0, 0, 0, 4, 1] before part ∧
      read 4 part = (if part.length < lengthWidth then .ok none else .error .cutShort, []) := by
  have hshort : ∀ message ∈ fourMessages, message.length < byteRange lengthWidth := by decide
  have hpiece : [0, 0, 0, 2, 7, 8, 0, 0, 0, 0, 0, 0, 0, 4, 1] <+: frames fourMessages := by decide
  obtain ⟨before, message, after, part, hsplit, heq, hremnant, hreads, hread, -⟩ :=
    read_truncated 4 fourMessages _ hshort (by decide) hpiece (by decide)
  exact ⟨before, message, after, part, hsplit, heq, hremnant, hreads, hread⟩

/-- Two bytes of a length are taken for the end of the stream. -/
theorem read_cut_length :
    [0, 0, 0, 1, 97, 0, 0] <+: frames [[97], []] ∧ Reads 10 [0, 0, 0, 1, 97, 0, 0] [[97]] [0, 0] ∧
      Remnant [] [0, 0] ∧ read 10 [0, 0] = (.ok none, []) :=
  ⟨by decide, .cons rfl (.nil _), ⟨by decide, by decide⟩, rfl⟩

end Frame

end Inventory
