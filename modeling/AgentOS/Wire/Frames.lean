import AgentOS.Base.Json
import AgentOS.Base.Utf8

/-!
# Newline frames

`wire_io` exchanges JSON values as lines of bounded length. The reader sees the stream in fragments
that end anywhere, also between a carriage return and its newline or inside a character. It reads
the same frames as from the stream cut at its newlines, and what `write_bounded_json` wrote is read
back (`frames_read_back`).
-/

namespace AgentOS

open Lib

/-- `String::from_utf8`. -/
def fromUtf8 (bytes : List UInt8) : Except String Text :=
  match bytes.toByteArray.utf8Decode? with
  | some chars => .ok chars.toList
  | none => .error "frame is not UTF-8"

/-- The error of a frame above the limit. -/
def frameExceeds (maxBytes : Nat) : String :=
  "JSON frame exceeds " ++ toString maxBytes ++ " bytes"

structure BoundedLineDecoder where
  frame : List UInt8
  (maxBytes peakRetainedBytes : Nat)

/-- `BoundedLineDecoder::new`. -/
def BoundedLineDecoder.new (maxBytes : Nat) : BoundedLineDecoder := ⟨[], maxBytes, 0⟩

inductive DecodeStep where
  | pending (consumed : Nat)
  | complete (consumed : Nat) (line : Except String Text)

def finishFrame (frame : List UInt8) : Except String Text :=
  fromUtf8 (if frame.getLast? = some 13 then frame.dropLast else frame)

/-- `feed`. The lengths of two buffers do not saturate their sum, and storage can be reserved. -/
def BoundedLineDecoder.feed (d : BoundedLineDecoder) (input : List UInt8) :
    DecodeStep × BoundedLineDecoder :=
  let newline := input.findIdx? (· == 10)
  let consumed := newline.elim input.length (· + 1)
  let payloadLen := newline.getD input.length
  let required := d.frame.length + payloadLen
  if d.maxBytes < required then (.complete consumed (.error (frameExceeds d.maxBytes)), d)
  else
    let frame := d.frame ++ input.take payloadLen
    let d := { d with frame, peakRetainedBytes := max d.peakRetainedBytes frame.length }
    match newline with
    | some _ => (.complete consumed (finishFrame frame), { d with frame := [] })
    | none => (.pending consumed, d)

def BoundedLineDecoder.finishEof (d : BoundedLineDecoder) : Except String (Option Text) :=
  if d.frame = [] then .ok none else (finishFrame d.frame).map some

/-- A fragment of the stream: at least one byte. -/
structure Fragment where
  first : UInt8
  rest : List UInt8

def Fragment.bytes (fragment : Fragment) : List UInt8 := fragment.first :: fragment.rest

/-- `BufReader::consume`: what is left of the fragment. -/
def Fragment.consume (fragment : Fragment) (count : Nat) : List Fragment :=
  match fragment.bytes.drop count with
  | [] => []
  | first :: rest => [⟨first, rest⟩]

/-- The bytes of a reader's fragments. -/
def streamOf (reader : List Fragment) : List UInt8 := reader.flatMap Fragment.bytes

/-- A read: its line, the fragments that it leaves and the most bytes that its decoder held. -/
structure Reading where
  line : Except String (Option Text)
  reader : List Fragment
  peakRetainedBytes : Nat

/-- The loop of `read_bounded_line`. A pending step has consumed its whole fragment. -/
def readLoop (d : BoundedLineDecoder) : List Fragment → Reading
  | [] => ⟨d.finishEof, [], d.peakRetainedBytes⟩
  | available :: later =>
    match d.feed available.bytes with
    | (.pending _, d) => readLoop d later
    | (.complete consumed line, d) =>
      ⟨line.map some, available.consume consumed ++ later, d.peakRetainedBytes⟩

def readBoundedLine (maxBytes : Nat) (reader : List Fragment) : Reading :=
  readLoop (.new maxBytes) reader

/-- Repeated reads, until the stream or the number of reads ends or one of them fails; with the most
bytes that were held. -/
def readFrames (maxBytes : Nat) : (reads : Nat) → List Fragment → List (Except String Text) × Nat
  | 0, _ => ([], 0)
  | reads + 1, reader =>
    let reading := readBoundedLine maxBytes reader
    match reading.line with
    | .error e => ([.error e], reading.peakRetainedBytes)
    | .ok none => ([], reading.peakRetainedBytes)
    | .ok (some line) =>
      let later := readFrames maxBytes reads reading.reader
      (.ok line :: later.1, max reading.peakRetainedBytes later.2)

/-- `serde_json::to_vec` as a text. It escapes control characters and writes no white space. -/
structure JsonSerializer (α : Type) where
  toText : α → Except String Text
  plain : ∀ {value text}, toText value = .ok text → ∀ c ∈ text, 32 ≤ c.toNat

variable {α : Type}

/-- `write_bounded_json`, after the bytes already written. -/
def writeBoundedJson (S : JsonSerializer α) (maxBytes : Nat) (written : List UInt8) (value : α) :
    Except String (List UInt8) := do
  let text ← S.toText value
  rejectIf (maxBytes < (asBytes text).length) (frameExceeds maxBytes)
  return written ++ asBytes text ++ [10]

/-! ## The stream as a whole -/

/-- The pieces between newlines, without a final empty one. -/
def pieces (stream : List UInt8) : List (List UInt8) :=
  let all := stream.splitOn 10
  if all.getLast? = some [] then all.dropLast else all

def lineOf (maxBytes : Nat) (p : List UInt8) : Except String Text :=
  if maxBytes < p.length then .error (frameExceeds maxBytes) else finishFrame p

/-- The results up to and including the first error. -/
def throughError : List (Except String Text) → List (Except String Text)
  | [] => []
  | .error e :: _ => [.error e]
  | .ok line :: later => .ok line :: throughError later

/-- The frames of a whole stream. -/
def framesOf (maxBytes : Nat) (stream : List UInt8) : List (Except String Text) :=
  throughError ((pieces stream).map (lineOf maxBytes))

variable {p rest front : List UInt8} {maxBytes : Nat}

theorem pieces_cons (h : 10 ∉ p) : pieces (p ++ 10 :: rest) = p :: pieces rest := by
  have hfree : ∀ b ∈ p, (b == 10) = false := by
    intro b hb
    exact beq_eq_false_iff_ne.2 fun heq => h (heq ▸ hb)
  have hs : (p ++ 10 :: rest).splitOn 10 = p :: rest.splitOn 10 :=
    List.splitOnP_append_cons_of_forall_mem hfree 10 rfl rest
  obtain ⟨fst, later, hrest⟩ := List.exists_cons_of_ne_nil (List.splitOnP_ne_nil (· == 10) rest)
  have hrest' : rest.splitOn 10 = fst :: later := hrest
  simp only [pieces, hs, hrest', List.getLast?_cons_cons, List.dropLast_cons_cons]
  split <;> rfl

theorem pieces_single (h : 10 ∉ p) (hne : p ≠ []) : pieces p = [p] := by
  have hs : p.splitOn 10 = [p] :=
    List.splitOnP_eq_singleton fun b hb => beq_eq_false_iff_ne.2 fun heq => h (heq ▸ hb)
  simp [pieces, hs, hne]

/-- The first piece of a stream begins with every front of it that has no newline. -/
theorem exists_piece (h : 10 ∉ front) (hne : front ≠ []) (stream : List UInt8) :
    ∃ tail rest, pieces (front ++ stream) = (front ++ tail) :: pieces rest := by
  by_cases hn : 10 ∈ stream
  · obtain ⟨tail, rest, rfl, htail⟩ := List.eq_append_cons_of_mem hn
    refine ⟨tail, rest, ?_⟩
    rw [← List.append_assoc]
    exact pieces_cons (by simp [h, htail])
  · exact ⟨stream, [], pieces_single (by simp [h, hn]) (by simp [hne])⟩

/-! ## One read -/

theorem findIdx?_newline {x : List UInt8} {n : Nat} (h : x.findIdx? (· == 10) = some n) :
    x = x.take n ++ 10 :: x.drop (n + 1) ∧ 10 ∉ x.take n := by
  obtain ⟨hn, hat, hb⟩ := List.findIdx?_eq_some_iff_getElem.1 h
  have hten : x[n] = 10 := by simpa using hat
  constructor
  · rw [← hten, ← List.drop_eq_getElem_cons hn, List.take_append_drop]
  · intro hmem
    obtain ⟨j, hj, heq⟩ := List.mem_take_iff_getElem.1 hmem
    exact hb j (by omega) (by simp [heq])

theorem streamOf_consume (fragment : Fragment) (count : Nat) (later : List Fragment) :
    streamOf (fragment.consume count ++ later) = fragment.bytes.drop count ++ streamOf later := by
  unfold streamOf Fragment.consume
  split
  · next hnil => simp [hnil]
  · next hcons => rw [hcons]; rfl

/-- A read of the rest of a stream: it ended, or the read takes its first piece. -/
def ReadsFirst (maxBytes : Nat) (stream : List UInt8) (r : Reading) : Prop :=
  (pieces stream = [] ∧ r.line = .ok none) ∨
    ∃ p rest, pieces stream = p :: pieces rest ∧
      r.line = (lineOf maxBytes p).map some ∧
      ∀ line, r.line = .ok line → streamOf r.reader = rest

/-- The loop, with the bytes that the decoder holds before those to come. -/
theorem readLoop_reads {d : BoundedLineDecoder} (reader : List Fragment) (hfree : 10 ∉ d.frame)
    (hheld : d.frame.length ≤ d.maxBytes) (hpeak : d.peakRetainedBytes ≤ d.maxBytes) :
    ReadsFirst d.maxBytes (d.frame ++ streamOf reader) (readLoop d reader) ∧
      (readLoop d reader).peakRetainedBytes ≤ d.maxBytes := by
  induction reader generalizing d with
  | nil =>
    refine ⟨?_, hpeak⟩
    rw [streamOf, List.flatMap_nil, List.append_nil]
    by_cases hem : d.frame = []
    · exact .inl ⟨by rw [hem]; rfl, if_pos hem⟩
    · refine .inr ⟨d.frame, [], pieces_single hfree hem, ?_, fun _ _ => rfl⟩
      rw [lineOf, if_neg (Nat.not_lt.2 hheld)]
      exact if_neg hem
  | cons avail later ih =>
    have hs : streamOf (avail :: later) = avail.bytes ++ streamOf later := rfl
    rw [hs, readLoop, BoundedLineDecoder.feed]
    cases hn : avail.bytes.findIdx? (· == 10) with
    | none =>
      have hfree' : 10 ∉ d.frame ++ avail.bytes := by
        have hnone := List.findIdx?_eq_none_iff.1 hn
        rw [List.mem_append]
        rintro (hmem | hmem)
        · exact hfree hmem
        · exact absurd (hnone 10 hmem) (by decide)
      simp only [Option.elim_none, Option.getD_none, List.take_length]
      rw [← List.append_assoc]
      by_cases he : d.maxBytes < d.frame.length + avail.bytes.length
      · -- the piece is longer than what has been seen of it
        obtain ⟨tail, rest, hpi⟩ := exists_piece hfree' (by simp [Fragment.bytes]) (streamOf later)
        rw [if_pos he]
        refine ⟨.inr ⟨_, rest, hpi, ?_, fun line hline => by cases hline⟩, hpeak⟩
        rw [lineOf, if_pos (by simp only [List.length_append]; omega)]
      · rw [if_neg he]
        rw [← List.length_append, Nat.not_lt] at he
        exact @ih ⟨_, _, _⟩ hfree' he (max_le hpeak he)
    | some n =>
      obtain ⟨hby, hb⟩ := findIdx?_newline hn
      have hfree' : 10 ∉ d.frame ++ avail.bytes.take n := by simp [hfree, hb]
      have hl : (avail.bytes.take n).length = n :=
        List.length_take_of_le (List.findIdx?_eq_some_iff_getElem.1 hn).1.le
      have hp : pieces (d.frame ++ (avail.bytes ++ streamOf later)) =
          (d.frame ++ avail.bytes.take n) ::
            pieces (avail.bytes.drop (n + 1) ++ streamOf later) := by
        rw [← pieces_cons hfree']
        nth_rewrite 1 [hby]
        simp
      have hrest := streamOf_consume avail (n + 1) later
      simp only [Option.elim_some, Option.getD_some]
      by_cases he : d.maxBytes < d.frame.length + n
      · rw [if_pos he]
        refine ⟨.inr ⟨_, _, hp, ?_, fun line hline => by cases hline⟩, hpeak⟩
        rw [lineOf, if_pos (by rw [List.length_append, hl]; exact he)]
      · rw [if_neg he]
        rw [← hl, ← List.length_append] at he
        refine ⟨.inr ⟨_, _, hp, ?_, fun _ _ => hrest⟩, max_le hpeak (Nat.not_lt.1 he)⟩
        rw [lineOf, if_neg he]

/-! ## Whole streams -/

/-- The reads of a reader are the frames of its stream. -/
theorem readFrames_eq (maxBytes reads : Nat) (reader : List Fragment) :
    (readFrames maxBytes reads reader).1 = (framesOf maxBytes (streamOf reader)).take reads ∧
      (readFrames maxBytes reads reader).2 ≤ maxBytes := by
  induction reads generalizing reader with
  | zero => exact ⟨rfl, Nat.zero_le _⟩
  | succ reads ih =>
    obtain ⟨hr, hpeak⟩ : ReadsFirst maxBytes (streamOf reader) (readBoundedLine maxBytes reader) ∧
        (readBoundedLine maxBytes reader).peakRetainedBytes ≤ maxBytes :=
      readLoop_reads (d := .new maxBytes) reader List.not_mem_nil (Nat.zero_le _) (Nat.zero_le _)
    rw [readFrames, framesOf]
    rcases hr with ⟨hnone, hline⟩ | ⟨p, rest, hpi, hline, hrest⟩
    · simp only [hline, hnone]
      exact ⟨rfl, hpeak⟩
    · rw [hpi, List.map_cons]
      cases hp : lineOf maxBytes p with
      | error e =>
        simp only [hline, hp, Except.map]
        exact ⟨by simp [throughError], hpeak⟩
      | ok line =>
        rw [hp] at hline
        obtain ⟨hl, hlP⟩ := ih (readBoundedLine maxBytes reader).reader
        rw [hrest _ hline] at hl
        simp only [hline, Except.map, hl]
        exact ⟨rfl, max_le hpeak hlP⟩

theorem fromUtf8_asBytes (text : Text) : fromUtf8 (asBytes text) = .ok text := by
  have hd : (asBytes text).toByteArray.utf8Decode? = some text.toArray :=
    List.utf8Decode?_utf8Encode
  simp [fromUtf8, hd]

/-- A text without control characters is one piece, and its line is the text. -/
theorem lineOf_plain {text : Text} (hp : ∀ c ∈ text, 32 ≤ c.toNat)
    (hfits : (asBytes text).length ≤ maxBytes) :
    10 ∉ asBytes text ∧ lineOf maxBytes (asBytes text) = .ok text := by
  have ha : ∀ d : Char, d.toNat < 32 → asciiByte d ∉ asBytes text := by
    intro d hd hmem
    have hle := hp d ((asciiByte_mem_asBytes (by omega)).1 hmem)
    omega
  have hr : (asBytes text).getLast? ≠ some 13 := by
    intro hlast
    exact ha '\r' (by decide) (List.mem_of_getLast? hlast)
  refine ⟨ha '\n' (by decide), ?_⟩
  rw [lineOf, if_neg (Nat.not_lt.2 hfits), finishFrame, if_neg hr, fromUtf8_asBytes]

/-- What a sequence of writes leaves on the wire. -/
theorem foldlM_write {S : JsonSerializer α} {vs : List α} {written stream : List UInt8}
    (h : vs.foldlM (writeBoundedJson S maxBytes) written = .ok stream) :
    ∃ texts, vs.mapM S.toText = .ok texts ∧
      stream = written ++ texts.flatMap (fun text => asBytes text ++ [10]) ∧
      framesOf maxBytes (texts.flatMap fun text => asBytes text ++ [10]) = texts.map .ok := by
  induction vs generalizing written with
  | nil =>
    cases h
    exact ⟨[], rfl, by simp, rfl⟩
  | cons v vs ih =>
    rw [List.foldlM_cons, bind_eq_ok] at h
    obtain ⟨mid, hw, hl⟩ := h
    simp only [writeBoundedJson, bind_eq_ok, rejectIf_eq_ok, pure_eq_ok] at hw
    obtain ⟨text, htext, -, hfits, rfl⟩ := hw
    obtain ⟨texts, ht, rfl, hf⟩ := ih hl
    obtain ⟨hfree, hline⟩ := lineOf_plain (S.plain htext) (Nat.not_lt.1 hfits)
    refine ⟨text :: texts, ?_, by simp, ?_⟩
    · rw [List.mapM_cons, htext, ht]
      rfl
    · have hp := @pieces_cons _ (texts.flatMap fun text => asBytes text ++ [10]) hfree
      rw [List.flatMap_cons, List.append_assoc, List.singleton_append, framesOf, hp,
        List.map_cons, hline, throughError, List.map_cons, ← hf]
      rfl

/-- Whatever the fragments, repeated reads give the frames of the whole stream, through the first
error, and hold at most `maxBytes` bytes; values that were written are read back one by one. -/
theorem frames_read_back (S : JsonSerializer α) (maxBytes reads : Nat) (reader : List Fragment) :
    (readFrames maxBytes reads reader).1 = (framesOf maxBytes (streamOf reader)).take reads ∧
      (readFrames maxBytes reads reader).2 ≤ maxBytes ∧
      ∀ values : List α, values.foldlM (writeBoundedJson S maxBytes) [] = .ok (streamOf reader) →
        ∃ texts, values.mapM S.toText = .ok texts ∧
          (readFrames maxBytes reads reader).1 = (texts.map .ok).take reads := by
  obtain ⟨hframes, hpeak⟩ := readFrames_eq maxBytes reads reader
  refine ⟨hframes, hpeak, ?_⟩
  intro values hvalues
  obtain ⟨texts, htexts, hstream, hread⟩ := foldlM_write hvalues
  refine ⟨texts, htexts, ?_⟩
  rw [hframes, hstream, List.nil_append, hread]

/-- No control character is left in the escape of a character. -/
theorem jsonEscape_plain (c : Char) : (jsonEscape c).all (32 ≤ ·.toNat) = true := by
  have hhex : ∀ i, 32 ≤ (hexChar i).toNat := by decide
  unfold jsonEscape
  split_ifs with _ _ _ _ _ _ _ hcontrol
  iterate 7 decide
  · rw [List.all_append, Bool.and_eq_true]
    exact ⟨by decide, by simp [hhex]⟩
  · simpa using hcontrol

/-- Texts as JSON strings. -/
def stringSerializer : JsonSerializer Text where
  toText value := .ok (jsonString value)
  plain := by
    rintro value _ ⟨⟩ c hc
    simp only [jsonString, List.cons_append, List.mem_cons, List.mem_append, List.mem_flatMap,
      List.not_mem_nil, or_false] at hc
    rcases hc with rfl | ⟨d, -, hd⟩ | rfl
    · decide
    · exact of_decide_eq_true (List.all_eq_true.1 (jsonEscape_plain d) c hd)
    · decide

/-- Two strings, with fragments that end inside a character and inside a line. -/
theorem frames_read_back_cut :
    let reader : List Fragment := [⟨34, [195]⟩, ⟨169, [34, 10, 34]⟩, ⟨92, [110, 34, 10]⟩]
    (readFrames 4 9 reader).1 = [.ok (jsonString ['é']), .ok (jsonString ['\n'])] := by
  intro reader
  have hwritten : [['é'], ['\n']].foldlM (writeBoundedJson stringSerializer 4) [] =
      .ok (streamOf reader) := by decide +kernel
  obtain ⟨texts, htexts, hread⟩ := (frames_read_back stringSerializer 4 9 reader).2.2 _ hwritten
  obtain rfl : [jsonString ['é'], jsonString ['\n']] = texts := Except.ok.inj htexts
  exact hread

end AgentOS
