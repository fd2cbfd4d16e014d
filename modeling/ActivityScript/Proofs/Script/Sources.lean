import ActivityScript.Proofs.Script.Scanning
import ActivityScript.Proofs.Text.Lines
import ActivityScript.Proofs.Text.Utf8

/-!
# Agreement of sources

A text is read alike from every kind of source (`tokenize_sources_agree`): at hand or as a stream,
as characters or as their UTF-8 bytes, and from a text file if its carriage returns stand before
line feeds. Bytes that are no encoding are read from neither kind of source.

The lexer sees only the lines of a source, so agreement is a matter of lines. The one kind that is
cut before it is decoded is a stream of bytes. UTF-8 uses the byte of a line feed for nothing else
(`notMem_utf8EncodeChar`), so cutting commutes with encoding (`terminated_encode`).
-/

namespace ActivityScript.Script

open Text Text.Utf8

variable {file : Option String} {text : List Char} {bytes : List UInt8}

/-! ## Cutting encoded text -/

/-- The lines of an encoded text are the encoded lines of the text, because no other character has
the byte of a line feed in its encoding. -/
theorem terminated_encode (text : List Char) :
    terminated 10 (encode text) = (terminated '\n' text).map encode := by
  induction text with
  | nil => rfl
  | cons c text ih =>
    rw [encode_cons, terminated]
    by_cases hc : c = '\n'
    · subst hc
      rw [if_pos rfl, List.map_cons, ← ih]
      rfl
    · rw [if_neg hc, terminated_append (notMem_utf8EncodeChar (b := 10) (c := '\n') rfl hc)
        String.utf8EncodeChar_ne_nil, ih]
      cases terminated '\n' text with
      | nil => simp [encode]
      | cons line lines => simp [encode_cons]

/-- The last character of an encoded text is dropped by its byte, if it is encoded as one byte.
Other characters do not end with this byte. -/
theorem dropFinal_encode {b : UInt8} {c : Char} (hb : String.utf8EncodeChar c = [b])
    (text : List Char) : dropFinal b (encode text) = encode (dropFinal c text) := by
  rcases List.eq_nil_or_concat text with rfl | ⟨init, d, rfl⟩
  · rfl
  · have hlast : encode (init ++ [d]) = encode init ++ String.utf8EncodeChar d := by
      rw [encode_append]
      exact congrArg _ (List.append_nil _)
    rw [List.concat_eq_append, hlast]
    by_cases hd : d = c
    · subst hd
      rw [hb, dropFinal_concat, dropFinal_concat]
    · rw [dropFinal_append String.utf8EncodeChar_ne_nil,
        dropFinal_of_notMem (notMem_utf8EncodeChar hb hd), dropFinal_append (List.cons_ne_nil _ _),
        dropFinal, if_neg hd, hlast]

/-- The terminator of an encoded line is the encoded terminator of the line. It can be cut off
before or after decoding. -/
theorem unterminated_encode (line : List Char) :
    unterminated 10 13 (encode line) = encode (unterminated '\n' '\r' line) := by
  rw [unterminated, unterminated, dropFinal_encode (b := 10) (c := '\n') rfl,
    dropFinal_encode (b := 13) (c := '\r') rfl]

/-- Encoded lines make up an encoded text. So bytes of which every line is a text are a text. -/
theorem exists_encode_flatten {lines : List (List UInt8)}
    (h : ∀ line ∈ lines, ∃ text, line = encode text) :
    ∃ text, lines.flatten = encode text := by
  induction lines with
  | nil => exact ⟨[], rfl⟩
  | cons line lines ih =>
    obtain ⟨text, rfl⟩ := h line List.mem_cons_self
    obtain ⟨more, hmore⟩ := ih fun l hl => h l (List.mem_cons_of_mem _ hl)
    exact ⟨text ++ more, by rw [List.flatten_cons, hmore, encode_append]⟩

/-! ## Lines of encoded text -/

/-- A stream of characters has the lines of its text. It keeps the terminators until the lines are
handed out, which makes no difference. -/
theorem lines_textStream (s : String) : (Source.textStream s).lines = (Source.text s).lines := by
  rw [Source.lines, Source.lines, streamedLines_eq_physicalLines]

/-- A text file has the lines of its text if its carriage returns stand before line feeds. Any other
carriage return would become a line feed. -/
theorem lines_textFile {s : String} (h : ReturnsBeforeFeeds s.toList) :
    (Source.textFile s).lines = (Source.text s).lines := by
  rw [Source.textFile, lines_textStream, Source.lines, Source.lines, String.toList_ofList,
    physicalLines_unifiedNewlines h]

/-- The bytes of a text have the lines of the text, since they are decoded as a whole. -/
theorem lines_bytes_encode (text : List Char) :
    (Source.bytes (encode text)).lines = (physicalLines text).map .ok := by
  rw [Source.lines, decode_eq_ok_iff.2 rfl]

/-- A stream of the bytes of a text has the lines of the text, though each line is decoded on its
own (`terminated_encode`). -/
theorem lines_byteStream_encode (text : List Char) :
    (Source.byteStream (encode text)).lines = (physicalLines text).map .ok := by
  rw [Source.lines, terminated_encode, ← streamedLines_eq_physicalLines, streamedLines,
    List.map_map, List.map_map]
  refine List.map_congr_left fun line _ => ?_
  rw [Function.comp_apply, Line.ofBytes, decode_eq_ok_iff.2 rfl]
  rfl

/-! ## Bytes that are no text -/

/-- A script that is read to its end has no faulty line, since such a line ends the reading with a
fault. -/
theorem exists_ok_of_tokens? {line : Nat} {lines : List Line} {tokens : List Token}
    (h : (lexLines file line lines).tokens? = .ok tokens) : ∀ l ∈ lines, ∃ cs, l = .ok cs := by
  induction lines generalizing line tokens with
  | nil => exact fun l hl => absurd hl List.not_mem_nil
  | cons l lines ih =>
    cases l with
    | error fault => cases h
    | ok cs =>
      rintro l (_ | ⟨_, hl⟩)
      · exact ⟨cs, rfl⟩
      · cases hlex : lexLine file line 0 cs with
        | mk found fault? =>
          cases fault? with
          | some diagnostic => rw [lexLines, hlex] at h; cases h
          | none =>
            rw [tokens?_lexLines_cons hlex] at h
            cases hrest : (lexLines file (line + 1) lines).tokens? with
            | error fault => rw [hrest] at h; cases h
            | ok rest => exact ih hrest l hl

/-- Bytes at hand that are read to their end are an encoded text, because they are decoded as a
whole before anything is read. -/
theorem exists_encode_of_tokenize_bytes {tokens : List Token}
    (h : tokenize (.bytes bytes) file = .ok tokens) : ∃ text, bytes = encode text := by
  cases hdecode : decode bytes with
  | ok text => exact ⟨text, decode_eq_ok_iff.1 hdecode⟩
  | error fault =>
    rw [tokenize, Source.lexing, Source.lines, hdecode] at h
    cases h

/-- A stream of bytes that is read to its end is an encoded text: each of its lines is, and the
lines make up the stream (`flatten_terminated`). -/
theorem exists_encode_of_tokenize_byteStream {tokens : List Token}
    (h : tokenize (.byteStream bytes) file = .ok tokens) : ∃ text, bytes = encode text := by
  rw [← flatten_terminated 10 bytes]
  refine exists_encode_flatten fun line hline => ?_
  obtain ⟨cs, hcs⟩ := exists_ok_of_tokens? h _ (List.mem_map_of_mem hline)
  cases hdecode : decode line with
  | ok text => exact ⟨text, decode_eq_ok_iff.1 hdecode⟩
  | error fault =>
    rw [Line.ofBytes, hdecode] at hcs
    cases hcs

/-! ## Agreement -/

/-- Sources with the same lines have the same tokens or the same fault. The lexer sees nothing else
of a source. -/
theorem tokenize_congr {source source' : Source} (h : source.lines = source'.lines) :
    tokenize source file = tokenize source' file := by
  rw [tokenize, tokenize, Source.lexing, Source.lexing, h]

/-- **All sources are read alike.** A text has the same tokens or the same fault at hand, as a
stream, as bytes and as a stream of bytes, and from a text file if each of its carriage returns
stands before a line feed. Any bytes whatever have tokens at hand if and only if they have them as
a stream, and then the same ones. -/
theorem tokenize_sources_agree (file : Option String) :
    (∀ s : String,
      tokenize (.textStream s) file = tokenize (.text s) file ∧
      tokenize (.bytes (encode s.toList)) file = tokenize (.text s) file ∧
      tokenize (.byteStream (encode s.toList)) file = tokenize (.text s) file ∧
      (ReturnsBeforeFeeds s.toList →
        tokenize (.textFile s) file = tokenize (.text s) file)) ∧
    ∀ bytes tokens,
      tokenize (.bytes bytes) file = .ok tokens ↔
        tokenize (.byteStream bytes) file = .ok tokens := by
  refine ⟨fun s => ⟨tokenize_congr (lines_textStream s), ?_, ?_, fun h => ?_⟩, ?_⟩
  · exact tokenize_congr (lines_bytes_encode s.toList)
  · exact tokenize_congr (lines_byteStream_encode s.toList)
  · exact tokenize_congr (lines_textFile h)
  · intro bytes tokens
    have hagree (text : List Char) :
        tokenize (.bytes (encode text)) file = tokenize (.byteStream (encode text)) file :=
      tokenize_congr ((lines_bytes_encode text).trans (lines_byteStream_encode text).symm)
    constructor
    · intro h
      obtain ⟨text, rfl⟩ := exists_encode_of_tokenize_bytes h
      rw [← hagree, h]
    · intro h
      obtain ⟨text, rfl⟩ := exists_encode_of_tokenize_byteStream h
      rw [hagree, h]

/-- A text file with carriage returns before its line feeds is read as the text. -/
theorem tokenize_sources_agree_returnFeed :
    ReturnsBeforeFeeds "print :a\r\n\tprint :b\r\n".toList ∧
      tokenize (.textFile "print :a\r\n\tprint :b\r\n") none
        = tokenize (.text "print :a\r\n\tprint :b\r\n") none := by
  have hreturns : ReturnsBeforeFeeds "print :a\r\n\tprint :b\r\n".toList := by decide
  exact ⟨hreturns, ((tokenize_sources_agree none).1 _).2.2.2 hreturns⟩

end ActivityScript.Script
