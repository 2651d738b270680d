import MatlabEdit.Source.Encoding

/-!
# Sources

A source is a document laid out for scanning: its bytes, then zeros. There is always at least one
zero after the last byte, so a reader that stands at the end of the document still reads
something, and what it reads is the boundary byte.

* `Source.ofString` lays out a document; the buffer's size is the next multiple of a block above
  the document's size.
* `Source.byteAt` is the view through which the scanner's laws are stated: the byte at an offset
  inside the content, and the boundary byte everywhere else.
* `Source.slice` cuts out text. A range that would cut through a character has no text.

Sizes and offsets are plain numbers here. A machine has words for them, and keeps no more of a
document than it can count (`Source.kept`). That part of it is a document of its own, and
`RawCursor.ofBytes_eq` says that the machine lays out a source of that.
-/

namespace MatlabEdit

/-- A document in a zero-padded buffer. -/
structure Source where
  /-- The document's bytes, followed by zeros. -/
  buffer : ByteArray
  /-- How many bytes the document has. -/
  size : Nat
  /-- Offset of the first byte of the content, past a byte order mark. -/
  contentStart : Nat
  contentStart_le : contentStart ≤ size
  /-- At least one zero follows the document. -/
  size_lt : size < buffer.size
  /-- Nothing but zeros follows the document. -/
  buffer_eq_zero : ∀ i (h : i < buffer.size), size ≤ i → buffer[i] = 0

namespace Source

/-- Buffers come in blocks of this many bytes. -/
def blockSize : Nat := 64

/-- The next multiple of the block size above `n`. -/
def paddedSize (n : Nat) : Nat := (n / blockSize + 1) * blockSize

theorem lt_paddedSize (n : Nat) : n < paddedSize n := by
  unfold paddedSize blockSize
  omega

/-- No multiple of the block size lies between a size and its padded size. -/
theorem paddedSize_le {n m : Nat} (h : n < m) (hm : blockSize ∣ m) : paddedSize n ≤ m := by
  obtain ⟨k, rfl⟩ := hm
  unfold paddedSize
  unfold blockSize at *
  omega

theorem blockSize_dvd_paddedSize (n : Nat) : blockSize ∣ paddedSize n :=
  ⟨n / blockSize + 1, Nat.mul_comm _ _⟩

/-- The zeros that follow `bytes` in a buffer. -/
def padding (bytes : ByteArray) : ByteArray :=
  (List.replicate (paddedSize bytes.size - bytes.size) 0).toByteArray

/-- The buffer for `bytes`. -/
def padded (bytes : ByteArray) : ByteArray := bytes ++ padding bytes

@[simp] theorem size_padding (bytes : ByteArray) :
    (padding bytes).size = paddedSize bytes.size - bytes.size := by
  simp [padding]

@[simp] theorem size_padded (bytes : ByteArray) : (padded bytes).size = paddedSize bytes.size := by
  have := lt_paddedSize bytes.size
  simp [padded]
  omega

theorem padded_eq_zero (bytes : ByteArray) (i : Nat) (h : i < (padded bytes).size)
    (hi : bytes.size ≤ i) : (padded bytes)[i] = 0 := by
  unfold padded at h ⊢
  rw [ByteArray.getElem_append_right hi]
  simp [padding]

/-- The source that holds `bytes`. -/
def ofBytes (bytes : ByteArray) : Source where
  buffer := padded bytes
  size := bytes.size
  contentStart := markLength bytes
  contentStart_le := markLength_le_size bytes
  size_lt := by rw [size_padded]; exact lt_paddedSize _
  buffer_eq_zero := padded_eq_zero bytes

/-- The source that holds a text. -/
def ofString (text : String) : Source := ofBytes text.toUTF8

/-- How many bytes of a document a machine keeps. The end of the document has to be a word. -/
def keptSize (n : Nat) : Nat := min n (UInt32.size - 1)

/-- The bytes of a document that are kept. -/
def kept (bytes : ByteArray) : ByteArray := bytes.extract 0 (keptSize bytes.size)

theorem keptSize_lt (n : Nat) : keptSize n < UInt32.size := by
  have hsize : 0 < UInt32.size := by decide
  unfold keptSize
  omega

theorem keptSize_le (n : Nat) : keptSize n ≤ n := Nat.min_le_left _ _

theorem size_kept (bytes : ByteArray) : (kept bytes).size = keptSize bytes.size := by
  have hle := keptSize_le bytes.size
  rw [kept, ByteArray.size_extract]
  omega

theorem size_kept_lt (bytes : ByteArray) : (kept bytes).size < UInt32.size := by
  rw [size_kept]
  exact keptSize_lt _

/-- A document is kept as it is, if a machine can count its bytes. -/
theorem kept_of_lt {bytes : ByteArray} (h : bytes.size < UInt32.size) : kept bytes = bytes := by
  have hle : bytes.size ≤ UInt32.size - 1 := Nat.le_sub_one_of_lt h
  rw [kept, keptSize, Nat.min_eq_left hle, ByteArray.extract_zero_size]

/-- The document's bytes, without what follows them in the buffer. -/
def bytes (s : Source) : ByteArray := s.buffer.extract 0 s.size

@[simp] theorem bytes_ofBytes (b : ByteArray) : (ofBytes b).bytes = b := by
  exact ByteArray.extract_append_eq_left rfl

/-- Whether the document has no byte. -/
def isEmpty (s : Source) : Bool := s.size == 0

/-- What is remarkable about the document's encoding. -/
def issues (s : Source) : List EncodingIssue := encodingIssues s.bytes

/-- The byte at an offset of the content, and the boundary byte at any other. -/
def byteAt (s : Source) (i : Nat) : UInt8 :=
  if h : s.contentStart ≤ i ∧ i < s.size then s.buffer.get i (Nat.lt_trans h.2 s.size_lt)
  else Byte.boundary

theorem byteAt_of_lt {s : Source} {i : Nat} (hs : s.contentStart ≤ i) (hi : i < s.size) :
    s.byteAt i = s.buffer.get i (Nat.lt_trans hi s.size_lt) :=
  dif_pos ⟨hs, hi⟩

theorem byteAt_of_lt_contentStart {s : Source} {i : Nat} (h : i < s.contentStart) :
    s.byteAt i = Byte.boundary :=
  dif_neg fun hc => Nat.not_le.mpr h hc.1

theorem byteAt_of_size_le {s : Source} {i : Nat} (h : s.size ≤ i) : s.byteAt i = Byte.boundary :=
  dif_neg fun hc => Nat.not_lt.mpr h hc.2

/-- The text of the bytes from `start` up to `stop`, both clamped to the document. Bytes that are no
UTF-8 text by themselves have the empty text. -/
def slice (s : Source) (start stop : Nat) : String :=
  let stop := min stop s.size
  (String.fromUTF8? (s.buffer.extract (min start stop) stop)).getD ""

/-- The document's text. -/
def text (s : Source) : String := s.slice 0 s.size

end Source

end MatlabEdit
