import Mathlib.Algebra.Group.Nat.Defs
import ProtoSchema.Proofs.Generator.Run
import ProtoSchema.Wire.Response

set_option autoImplicit false

/-! # Answers are read back from their bytes

What a document says is defined here on its own, without the limits of a particular reader: its
bytes are cut into records (`records?`), and an answer is what the records of its fields hold, where
of a field that is there once the last one counts (`response?`). Every written record is cut off
whole, whatever follows it, so every answer is read back from its bytes (`response?_writeResponse`).
The reader of this library gives numbers and lengths a limited number of bytes; within these limits
it reads the same answer (`readResponse_writeResponse`). -/

namespace ProtoSchema.Wire

/-! ## Numbers -/

theorem toNat_ofNat_of_lt {n : Nat} (h : n < 256) : (UInt8.ofNat n).toNat = n := by
  rw [UInt8.toNat_ofNat', Nat.mod_eq_of_lt h]

/-- A written number is read back if its bytes are within the limit. -/
theorem readBase128_writeVarint {limit n : Nat} (h : (writeVarint n).length ≤ limit)
    (rest : List UInt8) : readBase128 limit (writeVarint n ++ rest) = .ok (n, rest) := by
  induction n using Nat.strongRecOn generalizing limit with
  | ind n ih =>
    rw [writeVarint] at h ⊢
    cases limit with
    | zero => split at h <;> simp at h
    | succ limit =>
      split at h
      · next hlast =>
        rw [if_pos hlast, List.singleton_append, readBase128, toNat_ofNat_of_lt (by omega),
          if_pos hlast]
      · next hmore =>
        have hbyte : (UInt8.ofNat (n % 128 + 128)).toNat = n % 128 + 128 :=
          toNat_ofNat_of_lt (by omega)
        have hrest := ih (n / 128) (by omega) (Nat.le_of_succ_le_succ h)
        rw [if_neg hmore, List.cons_append, readBase128, hbyte, if_neg (by omega), hrest]
        simp only [Except.ok.injEq, Prod.mk.injEq, and_true]
        omega

/-- Seven bits of a number take one byte. -/
theorem length_writeVarint_le {n limit : Nat} (h : n < 128 ^ (limit + 1)) :
    (writeVarint n).length ≤ limit + 1 := by
  induction limit generalizing n with
  | zero =>
    rw [writeVarint, if_pos (by simpa using h)]
    exact Nat.le_refl _
  | succ limit ih =>
    rw [writeVarint]
    split
    · exact Nat.le_add_left _ _
    · rw [List.length_cons]
      refine Nat.succ_le_succ (ih ?_)
      rw [Nat.div_lt_iff_lt_mul (by decide), ← Nat.pow_succ]
      exact h

/-! ## Documents -/

/-- A number in base 128 of any length. -/
def base128? (bytes : List UInt8) : Option (Nat × List UInt8) :=
  (readBase128 bytes.length bytes).toOption

/-- The record at the start of a document. A tag holds the number of the field, which is not zero,
    and what follows: a number, or a length and as many bytes. -/
def record? (bytes : List UInt8) : Option (Record × List UInt8) := do
  let (tag, rest) ← base128? bytes
  let (n, rest) ← base128? rest
  if tag / 8 = 0 then none
  else if tag % 8 = 0 then some (⟨tag / 8, .varint n⟩, rest)
  else if tag % 8 = 2 ∧ n ≤ rest.length then some (⟨tag / 8, .bytes (rest.take n)⟩, rest.drop n)
  else none

theorem length_of_base128? {bytes rest : List UInt8} {n : Nat}
    (h : base128? bytes = some (n, rest)) : rest.length < bytes.length := by
  unfold base128? at h
  cases hread : readBase128 bytes.length bytes with
  | error e =>
    rw [hread] at h
    cases h
  | ok r =>
    rw [hread] at h
    cases h
    exact length_of_readBase128 hread

theorem length_of_record? {bytes rest : List UInt8} {record : Record}
    (h : record? bytes = some (record, rest)) : rest.length < bytes.length := by
  unfold record? at h
  obtain ⟨⟨tag, rest₁⟩, htag, h⟩ := Option.bind_eq_some_iff.1 h
  obtain ⟨⟨n, rest₂⟩, hn, h⟩ := Option.bind_eq_some_iff.1 h
  have hshorter := Nat.lt_trans (length_of_base128? hn) (length_of_base128? htag)
  dsimp only at h
  split at h
  · cases h
  · split at h
    · cases h
      exact hshorter
    · split at h
      · cases h
        rw [List.length_drop]
        omega
      · cases h

/-- The records of a document. -/
def records? (bytes : List UInt8) : Option (List Record) :=
  if bytes.isEmpty then some []
  else match _h : record? bytes with
    | none => none
    | some (record, rest) => (records? rest).map (record :: ·)
termination_by bytes.length
decreasing_by exact length_of_record? _h

/-- The byte strings in the records of a field. -/
def contents (field : Nat) (records : List Record) : List (List UInt8) :=
  records.filterMap fun record => if record.field = field then record.value.bytes? else none

/-- The numbers in the records of a field. -/
def numbers (field : Nat) (records : List Record) : List Nat :=
  records.filterMap fun record => if record.field = field then record.value.word? .varint else none

/-- The texts in the records of a field, all of which have to be decoded. -/
def texts? (field : Nat) (records : List Record) : Option (List String) :=
  (contents field records).mapM decodeText?

/-- The generated file that a document describes. -/
def output? (bytes : List UInt8) : Option OutputFile := do
  let records ← records? bytes
  let paths ← texts? 1 records
  let contents ← texts? 15 records
  return ⟨paths.getLastD "", contents.getLastD ""⟩

/-- The answer that a document describes. -/
def response? (bytes : List UInt8) : Option GeneratorResponse := do
  let records ← records? bytes
  let errors ← texts? 1 records
  let files ← (contents 15 records).mapM output?
  return ⟨errors.getLast?, (numbers 2 records).getLastD 0, files⟩

/-! ## Written records -/

theorem base128?_writeVarint (n : Nat) (rest : List UInt8) :
    base128? (writeVarint n ++ rest) = some (n, rest) := by
  rw [base128?, readBase128_writeVarint (by simp)]
  rfl

theorem records?_nil : records? [] = some [] := by
  rw [records?]
  rfl

theorem records?_of_record? {bytes rest : List UInt8} {record : Record}
    (h : record? bytes = some (record, rest)) :
    records? bytes = (records? rest).map (record :: ·) := by
  have hne : ¬ bytes.isEmpty := by
    intro hempty
    have hshorter := length_of_record? h
    rw [List.isEmpty_iff.1 hempty] at hshorter
    cases hshorter
  rw [records?, if_neg hne]
  split
  · next hnone => cases h.symm.trans hnone
  · next hsome =>
    cases h.symm.trans hsome
    rfl

theorem records?_writeNumber {field : Nat} (hfield : field ≠ 0) (n : Nat) (rest : List UInt8) :
    records? (writeNumber field n ++ rest) =
      (records? rest).map (⟨field, .varint n⟩ :: ·) := by
  apply records?_of_record?
  simp only [record?, writeNumber, List.append_assoc, base128?_writeVarint, Option.bind_eq_bind,
    Option.bind_some]
  rw [Nat.mul_div_cancel_left field (by decide), if_neg hfield, if_pos (Nat.mul_mod_right 8 field)]

theorem records?_writeBytes {field : Nat} (hfield : field ≠ 0) (content rest : List UInt8) :
    records? (writeBytes field content ++ rest) =
      (records? rest).map (⟨field, .bytes content⟩ :: ·) := by
  have hdiv : (8 * field + 2) / 8 = field := by omega
  have hmod : (8 * field + 2) % 8 = 2 := by omega
  apply records?_of_record?
  simp only [record?, writeBytes, List.append_assoc, base128?_writeVarint, Option.bind_eq_bind,
    Option.bind_some]
  rw [hdiv, if_neg hfield, hmod, if_neg (by decide), if_pos ⟨rfl, by simp⟩, List.take_left,
    List.drop_left]

theorem decodeText?_textBytes (s : String) : decodeText? (textBytes s) = some s := by
  rw [decodeText?, String.fromUTF8?]
  exact dif_pos s.isValidUTF8

/-- Records of one field that hold byte strings. -/
def bytesRecords (field : Nat) (contents : List (List UInt8)) : List Record :=
  contents.map fun content => ⟨field, .bytes content⟩

theorem records?_flatMap_writeBytes {field : Nat} (hfield : field ≠ 0)
    (contents : List (List UInt8)) (rest : List UInt8) :
    records? (contents.flatMap (writeBytes field) ++ rest) =
      (records? rest).map (bytesRecords field contents ++ ·) := by
  induction contents with
  | nil => simp [bytesRecords]
  | cons content contents ih =>
    rw [List.flatMap_cons, List.append_assoc, records?_writeBytes hfield, ih, Option.map_map]
    rfl

theorem contents_append (field : Nat) (records records' : List Record) :
    contents field (records ++ records') = contents field records ++ contents field records' :=
  List.filterMap_append

theorem numbers_append (field : Nat) (records records' : List Record) :
    numbers field (records ++ records') = numbers field records ++ numbers field records' :=
  List.filterMap_append

theorem contents_bytesRecords (field field' : Nat) (l : List (List UInt8)) :
    contents field (bytesRecords field' l) = if field' = field then l else [] := by
  rw [contents, bytesRecords, List.filterMap_map]
  split
  · next h => simp [h, WireValue.bytes?]
  · next h => simp [h]

theorem numbers_bytesRecords (field field' : Nat) (l : List (List UInt8)) :
    numbers field (bytesRecords field' l) = [] := by
  simp [numbers, bytesRecords, WireValue.word?]

/-! ## Written answers -/

theorem mapM_map_eq_some {α β : Type} {f : α → β} {g : β → Option α} (h : ∀ a, g (f a) = some a)
    (l : List α) : (l.map f).mapM g = some l := by
  induction l with
  | nil => rfl
  | cons a l ih => rw [List.map_cons, List.mapM_cons, h, ih]; rfl

theorem writeOutput_eq (file : OutputFile) :
    writeOutput file = [textBytes file.path].flatMap (writeBytes 1) ++
      ([textBytes file.content].flatMap (writeBytes 15) ++ []) := by
  simp [writeOutput, writeText]

/-- The records of a generated file. -/
theorem records?_writeOutput (file : OutputFile) :
    records? (writeOutput file) =
      some (bytesRecords 1 [textBytes file.path] ++ bytesRecords 15 [textBytes file.content]) := by
  rw [writeOutput_eq, records?_flatMap_writeBytes (by decide),
    records?_flatMap_writeBytes (by decide), records?_nil]
  rfl

theorem output?_writeOutput (file : OutputFile) : output? (writeOutput file) = some file := by
  simp only [output?, records?_writeOutput, texts?, contents_append, contents_bytesRecords,
    Option.bind_eq_bind, Option.bind_some]
  simp [decodeText?_textBytes]

theorem writeResponse_eq (response : GeneratorResponse) :
    writeResponse response =
      (response.error.toList.map textBytes).flatMap (writeBytes 1) ++
        (writeNumber 2 response.features ++
          ((response.files.map writeOutput).flatMap (writeBytes 15) ++ [])) := by
  have herror : (response.error.map (writeText 1)).getD [] =
      (response.error.toList.map textBytes).flatMap (writeBytes 1) := by
    cases response.error <;> simp [writeText]
  have hfiles : (response.files.flatMap fun file => writeBytes 15 (writeOutput file)) =
      (response.files.map writeOutput).flatMap (writeBytes 15) := by
    rw [List.flatMap_map]
  rw [writeResponse, herror, hfiles, List.append_assoc, List.append_nil]

/-- The records of an answer: one for the error, if there is one, one for the features, and one for
    each file. -/
theorem records?_writeResponse (response : GeneratorResponse) :
    records? (writeResponse response) =
      some (bytesRecords 1 (response.error.toList.map textBytes) ++
        ([⟨2, .varint response.features⟩] ++
          bytesRecords 15 (response.files.map writeOutput))) := by
  rw [writeResponse_eq, records?_flatMap_writeBytes (by decide),
    records?_writeNumber (by decide), records?_flatMap_writeBytes (by decide), records?_nil]
  simp

/-- Every answer is read back from its bytes. -/
theorem response?_writeResponse (response : GeneratorResponse) :
    response? (writeResponse response) = some response := by
  have hcontents : ∀ field n, contents field [⟨2, .varint n⟩] = [] := by
    simp [contents, WireValue.bytes?]
  have hnumbers : ∀ n, numbers 2 [⟨2, .varint n⟩] = [n] := by
    simp [numbers, WireValue.word?]
  have herrors : (response.error.toList.map textBytes).mapM decodeText? =
      some response.error.toList := mapM_map_eq_some decodeText?_textBytes _
  have hfiles : (response.files.map writeOutput).mapM output? = some response.files :=
    mapM_map_eq_some output?_writeOutput _
  have hlast : response.error.toList.getLast? = response.error := by
    cases response.error <;> rfl
  simp only [response?, records?_writeResponse, texts?, contents_append, numbers_append,
    contents_bytesRecords, numbers_bytesRecords, hcontents, hnumbers, Option.bind_eq_bind,
    Option.bind_some]
  simp [herrors, hfiles, hlast]

/-! ## Reading within limits -/

/-- Less than this is written with at most five bytes, as many as tags and lengths may have. -/
def lengthBound : Nat := 128 ^ 5

theorem readBase128_of_lt_lengthBound {n : Nat} (h : n < lengthBound) (rest : List UInt8) :
    readBase128 5 (writeVarint n ++ rest) = .ok (n, rest) :=
  readBase128_writeVarint (length_writeVarint_le h) rest

theorem readTag_writeVarint {t : Nat} {type : WireType} (ht : t < 2 ^ 32)
    (htype : WireType.ofNumber? (t % 8) = some type) (rest : List UInt8) :
    readTag (writeVarint t ++ rest) = .ok (⟨t / 8, type⟩, rest) := by
  have hbound : t < lengthBound := Nat.lt_trans ht (by decide)
  rw [readTag, readBase128_of_lt_lengthBound hbound]
  simp only [htype]
  exact if_pos ht

theorem readRecord_writeNumber {field n : Nat} (hfield : field ≠ 0) (hsmall : field < 2 ^ 28)
    (hn : n < 2 ^ 64) (depth : Nat) (rest : List UInt8) :
    readRecord depth (writeNumber field n ++ rest) = .ok (⟨field, .varint n⟩, rest) := by
  have hmod : 8 * field % 8 = 0 := Nat.mul_mod_right 8 field
  have hdiv : 8 * field / 8 = field := Nat.mul_div_cancel_left field (by decide)
  have htype : WireType.ofNumber? (8 * field % 8) = some (.plain .varint) := by rw [hmod]; rfl
  have hlength : (writeVarint n).length ≤ 9 + 1 := length_writeVarint_le (by omega)
  have hvalue : readVarint (writeVarint n ++ rest) = .ok (n, rest) := by
    rw [readVarint, readBase128_writeVarint hlength]
    simp only [Nat.mod_eq_of_lt (show n < Nat.pow 2 64 from hn)]
  rw [writeNumber, List.append_assoc, readRecord, readTag_writeVarint (by omega) htype]
  simp only [hdiv, if_neg hfield, readValue, readPlain, hvalue]
  rfl

theorem readRecord_writeBytes {field : Nat} (hfield : field ≠ 0) (hsmall : field < 2 ^ 28)
    {content : List UInt8} (hcontent : content.length < lengthBound) (depth : Nat)
    (rest : List UInt8) :
    readRecord depth (writeBytes field content ++ rest) = .ok (⟨field, .bytes content⟩, rest) := by
  have hmod : (8 * field + 2) % 8 = 2 := by omega
  have hdiv : (8 * field + 2) / 8 = field := by omega
  have htype : WireType.ofNumber? ((8 * field + 2) % 8) = some (.plain .bytes) := by rw [hmod]; rfl
  have htake : takeBytes content.length (content ++ rest) = .ok (content, rest) := by
    rw [takeBytes, if_pos (by simp), List.take_left, List.drop_left]
  rw [writeBytes, List.append_assoc, List.append_assoc, readRecord,
    readTag_writeVarint (by omega) htype]
  simp only [hdiv, if_neg hfield, readValue, readPlain, readLength,
    readBase128_of_lt_lengthBound hcontent, htake]
  rfl

section

variable {α : Type} {depth : Nat} {step : α → Record → Except WireFault α}

theorem readFields_nil (a : α) : readFields depth step [] a = .ok a := by
  rw [readFields]
  rfl

theorem readFields_of_readRecord {bytes rest : List UInt8} {record : Record}
    (h : readRecord depth bytes = .ok (record, rest)) (a : α) :
    readFields depth step bytes a = step a record >>= readFields depth step rest := by
  have hne : ¬ bytes.isEmpty := by
    intro hempty
    have hshorter := length_of_readRecord h
    rw [List.isEmpty_iff.1 hempty] at hshorter
    cases hshorter
  rw [readFields, if_neg hne]
  split
  · next herror => cases h.symm.trans herror
  · next hok =>
    cases h.symm.trans hok
    cases step a record <;> rfl

/-- Written byte strings are read one after the other. -/
theorem readFields_flatMap_writeBytes {field : Nat} (hfield : field ≠ 0) (hsmall : field < 2 ^ 28)
    {contents : List (List UInt8)} (h : ∀ content ∈ contents, content.length < lengthBound)
    (rest : List UInt8) (a : α) :
    readFields depth step (contents.flatMap (writeBytes field) ++ rest) a =
      (bytesRecords field contents).foldlM step a >>= readFields depth step rest := by
  induction contents generalizing a with
  | nil => rfl
  | cons content contents ih =>
    rw [List.forall_mem_cons] at h
    rw [List.flatMap_cons, List.append_assoc,
      readFields_of_readRecord (readRecord_writeBytes hfield hsmall h.1 depth _), funext (ih h.2)]
    show _ = ((⟨field, .bytes content⟩ :: bytesRecords field contents).foldlM step a) >>= _
    rw [List.foldlM_cons, bind_assoc]

end

theorem readText_textBytes (s : String) : readText (textBytes s) = .ok s := by
  rw [readText, decodeText?_textBytes]

/-- What is written is longer than each of its parts. -/
theorem forall_length_lt (field : Nat) {contents : List (List UInt8)} {bound : Nat}
    (h : (contents.flatMap (writeBytes field)).length < bound) :
    ∀ content ∈ contents, content.length < bound := by
  intro content hcontent
  have hwritten : content.length ≤ (writeBytes field content).length := by
    rw [writeBytes, List.length_append]
    exact Nat.le_add_left _ _
  obtain ⟨front, back, rfl⟩ := List.append_of_mem hcontent
  simp only [List.flatMap_append, List.flatMap_cons, List.length_append] at h
  omega

theorem readOutput_writeOutput {file : OutputFile} (h : (writeOutput file).length < lengthBound)
    (depth : Nat) : readOutput depth (writeOutput file) = .ok file := by
  rw [writeOutput_eq, List.append_nil, List.length_append] at h
  have hpath : ∀ content ∈ [textBytes file.path], content.length < lengthBound :=
    forall_length_lt 1 (by omega)
  have hcontent : ∀ content ∈ [textBytes file.content], content.length < lengthBound :=
    forall_length_lt 15 (by omega)
  have hfirst : (bytesRecords 1 [textBytes file.path]).foldlM outputStep ⟨"", ""⟩ =
      .ok ⟨file.path, ""⟩ := by
    simp only [bytesRecords, List.map_cons, List.map_nil, List.foldlM_cons, List.foldlM_nil,
      outputStep, decodedText, readText_textBytes]
    rfl
  have hsecond : (bytesRecords 15 [textBytes file.content]).foldlM outputStep ⟨file.path, ""⟩ =
      .ok file := by
    simp only [bytesRecords, List.map_cons, List.map_nil, List.foldlM_cons, List.foldlM_nil,
      outputStep, decodedText, readText_textBytes]
    rfl
  calc readOutput depth (writeOutput file)
      = readFields depth outputStep ([textBytes file.content].flatMap (writeBytes 15) ++ [])
          ⟨file.path, ""⟩ := by
        rw [readOutput, writeOutput_eq, readFields_flatMap_writeBytes (by decide) (by decide) hpath,
          hfirst]
        rfl
    _ = readFields depth outputStep [] file := by
        rw [readFields_flatMap_writeBytes (by decide) (by decide) hcontent, hsecond]
        rfl
    _ = .ok file := readFields_nil file

/-- Files are added to those of an answer. -/
theorem foldlM_responseStep {files : List OutputFile}
    (h : ∀ file ∈ files, (writeOutput file).length < lengthBound) (response : GeneratorResponse) :
    (bytesRecords 15 (files.map writeOutput)).foldlM responseStep response =
      .ok { response with files := response.files ++ files } := by
  induction files generalizing response with
  | nil => simp [bytesRecords]; rfl
  | cons file files ih =>
    rw [List.forall_mem_cons] at h
    have hstep : responseStep response ⟨15, .bytes (writeOutput file)⟩ =
        .ok { response with files := response.files ++ [file] } := by
      simp only [responseStep, appendNested, enter, maxDepth, readOutput_writeOutput h.1]
      rfl
    show (⟨15, .bytes (writeOutput file)⟩ :: bytesRecords 15 (files.map writeOutput)).foldlM _ _ = _
    rw [List.foldlM_cons, hstep]
    show List.foldlM responseStep _ _ = _
    rw [ih h.2, List.append_assoc, List.singleton_append]

/-- An answer that is not too long is read back by the reader of this library as well. -/
theorem readResponse_writeResponse {response : GeneratorResponse}
    (hfeatures : response.features < 2 ^ 64)
    (hlength : (writeResponse response).length < lengthBound) :
    readResponse (writeResponse response) = .ok response := by
  rw [writeResponse_eq, List.append_nil, List.length_append, List.length_append] at hlength
  have herror : ∀ content ∈ response.error.toList.map textBytes, content.length < lengthBound :=
    forall_length_lt 1 (by omega)
  have hfiles : ∀ content ∈ response.files.map writeOutput, content.length < lengthBound :=
    forall_length_lt 15 (by omega)
  have hfirst : (bytesRecords 1 (response.error.toList.map textBytes)).foldlM responseStep
      ⟨none, 0, []⟩ = .ok ⟨response.error, 0, []⟩ := by
    cases response.error with
    | none => rfl
    | some s =>
      simp only [bytesRecords, Option.toList_some, List.map_cons, List.map_nil, List.foldlM_cons,
        List.foldlM_nil, responseStep, readText_textBytes]
      rfl
  have hnumber : responseStep ⟨response.error, 0, []⟩ ⟨2, .varint response.features⟩ =
      .ok ⟨response.error, response.features, []⟩ := by
    simp only [responseStep, NumberFormat.read?, natFormat, WireValue.word?, Option.map_some,
      Option.getD_some, Nat.mod_eq_of_lt (show response.features < Nat.pow 2 64 from hfeatures)]
  have hlast := foldlM_responseStep (fun file hfile => hfiles _ (List.mem_map_of_mem hfile))
    ⟨response.error, response.features, []⟩
  calc readResponse (writeResponse response)
      = readFields maxDepth responseStep (writeNumber 2 response.features ++
          ((response.files.map writeOutput).flatMap (writeBytes 15) ++ []))
          ⟨response.error, 0, []⟩ := by
        rw [readResponse, writeResponse_eq,
          readFields_flatMap_writeBytes (by decide) (by decide) herror, hfirst]
        rfl
    _ = readFields maxDepth responseStep
          ((response.files.map writeOutput).flatMap (writeBytes 15) ++ [])
          ⟨response.error, response.features, []⟩ := by
        rw [readFields_of_readRecord
          (readRecord_writeNumber (by decide) (by decide) hfeatures maxDepth _), hnumber]
        rfl
    _ = readFields maxDepth responseStep [] response := by
        rw [readFields_flatMap_writeBytes (by decide) (by decide) hfiles, hlast]
        rfl
    _ = .ok response := readFields_nil response

/-! ## The plugin -/

/-- The plugin writes the answer to the request that it reads. -/
theorem answerBytes_eq {bytes : List UInt8} {request : GeneratorRequest}
    (h : decodeRequest bytes = .ok request) :
    answerBytes bytes = .ok ((request.answer true).1, (request.answer true).2,
      writeResponse (request.answer true).1) := by
  -- the request is read after the definitions have been asked for
  have hplugin : answerBytes bytes = .ok ((request.answer (.done true)).1,
      (request.answer (.done true)).2 ++ [], writeResponse (request.answer (.done true)).1) := by
    unfold answerBytes plugin
    rw [h]
    rfl
  have hsame : request.answer (.done true) = request.answer true :=
    request.answer_of_found rfl rfl
  rw [hplugin, List.append_nil, hsame]

/-- **What the plugin writes is read back as its answer.** The bytes of every answer say exactly
    that answer: whether there is an error and which, the features, and the paths and contents of
    the files in order. So for all bytes that hold a request, the bytes that are written say the
    answer to that request; if they are less than two gigabytes, which is what documents in this
    format may have, the reader of this library reads the same. -/
theorem answer_read_back :
    (∀ response : GeneratorResponse, response? (writeResponse response) = some response) ∧
    ∀ (bytes : List UInt8) (request : GeneratorRequest), decodeRequest bytes = .ok request →
      ∃ output : List UInt8,
        answerBytes bytes = .ok ((request.answer true).1, (request.answer true).2, output) ∧
        response? output = some (request.answer true).1 ∧
        (output.length < 2 ^ 31 → readResponse output = .ok (request.answer true).1) := by
  refine ⟨response?_writeResponse, fun bytes request hrequest => ?_⟩
  refine ⟨writeResponse (request.answer true).1, ?_, response?_writeResponse _, fun hlength => ?_⟩
  · exact answerBytes_eq hrequest
  · have hfeatures : (request.answer true).1.features = 1 := by
      rw [request.answer_fst]
      cases (request.generation true).outcome <;> rfl
    refine readResponse_writeResponse ?_ (Nat.lt_trans hlength (by decide))
    rw [hfeatures]
    decide

/-- A request for a file that is not there, whose name takes more bytes than it has characters; and
    an answer with an empty file in it. -/
theorem answer_read_back_of_unknown_file :
    let bytes : List UInt8 := [0x0A, 2, 0xC3, 0xA9]
    let refused : GeneratorResponse :=
      ⟨some "ValueError: Could not find descriptor for é", 1, []⟩
    let generated : GeneratorResponse := ⟨none, 1, [⟨"é_zod.ts", "// é\n"⟩, ⟨"", ""⟩]⟩
    decodeRequest bytes = .ok ⟨["é"], "", []⟩ ∧
      (∃ notices output, answerBytes bytes = .ok (refused, notices, output) ∧
        response? output = some refused ∧ output.length < 2 ^ 31 ∧
        readResponse output = .ok refused) ∧
      response? (writeResponse generated) = some generated := by
  intro bytes refused generated
  have hrequest : decodeRequest bytes = .ok ⟨["é"], "", []⟩ := by with_unfolding_all rfl
  have hgeneration : (GeneratorRequest.generation true ⟨["é"], "", []⟩).outcome =
      .error (.unknownFile "é") := by decide
  have hanswer : (GeneratorRequest.answer true ⟨["é"], "", []⟩).1 = refused := by
    rw [GeneratorRequest.answer_fst, hgeneration]
    rfl
  obtain ⟨hall, hplugin⟩ := answer_read_back
  obtain ⟨output, hwritten, hread, hlimited⟩ := hplugin bytes _ hrequest
  rw [hanswer] at hwritten hread hlimited
  have hlength : output.length < 2 ^ 31 := by
    have houtput : (answerBytes bytes).map (fun r => r.2.2) = .ok (writeResponse refused) := by
      rw [answerBytes_eq hrequest, ← hanswer]
      rfl
    have htext : (textBytes "ValueError: Could not find descriptor for é").length = 44 := by
      decide +kernel
    have hnumbers : writeVarint 44 = [44] ∧ writeVarint 10 = [10] ∧ writeVarint 16 = [16] ∧
        writeVarint 1 = [1] := ⟨by cbv, by cbv, by cbv, by cbv⟩
    obtain rfl : output = writeResponse refused := by
      rw [hwritten] at houtput
      exact Except.ok.inj houtput
    simp [writeResponse, refused, writeText, writeBytes, writeNumber, htext, hnumbers]
  exact ⟨hrequest, ⟨_, output, hwritten, hread, hlength, hlimited hlength⟩, hall generated⟩

end ProtoSchema.Wire
