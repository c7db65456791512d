import Mathlib.Data.List.Basic
import WrapperGen.Proofs.Plurals
import WrapperGen.Text.Bytes
/-!
# Affixes of bytes

A text that is kept as UTF-8 may be sliced at any byte offset, and a slice inside a character or
beyond the end stops the program. Here affixes and singulars are looked for in bytes, with a fault
for everything that may go wrong, and it turns out that nothing does.

1. A byte offset is a boundary exactly where the text can be cut between characters
   (`isBoundary_bytes`), so slices of a text are texts (`headTo?_bytes`, `tailFrom?_bytes`).
2. Bytes agree up to the case of ASCII letters exactly when the characters do
   (`sameLetters_bytes_iff`): the bytes of other characters are no ASCII letters.
3. So heads and tails found in bytes are those of the characters (`stripHeadBytes_bytes`,
   `stripTailBytes_bytes`), and so is the singular (`singularBytes_bytes`); the two bytes that it
   drops after an ending in `es` are two letters (`isBoundary_of_endsLike`).
-/

namespace WrapperGen

namespace Text

/-! ## Slices -/

/-- The UTF-8 bytes of a text. -/
def bytes (text : List Char) : List UInt8 := text.flatMap String.utf8EncodeChar

/-- A byte that goes on with a character. -/
def isContinuation (b : UInt8) : Bool := 0x80 ≤ b && b < 0xC0

/-- A slice may begin or end at the offset. -/
def isBoundary (bs : List UInt8) (offset : Nat) : Bool :=
  offset == 0 ||
    match bs[offset]? with
    | some b => !isContinuation b
    | none => offset == bs.length

/-- What stops a procedure on bytes. -/
inductive ByteFault where
  /-- A number is taken from a smaller one. -/
  | underflow
  /-- A slice begins or ends inside a character or beyond the text. -/
  | offBoundary
  deriving DecidableEq, Repr, Inhabited

/-- The bytes before an offset, if it is a boundary. -/
def headTo? (bs : List UInt8) (offset : Nat) : Option (List UInt8) :=
  if isBoundary bs offset then some (bs.take offset) else none

/-- The bytes from an offset on, if it is a boundary. -/
def tailFrom? (bs : List UInt8) (offset : Nat) : Option (List UInt8) :=
  if isBoundary bs offset then some (bs.drop offset) else none

/-- The bytes before an offset, which has to be a boundary. -/
def sliceTo (bs : List UInt8) (offset : Nat) : Except ByteFault (List UInt8) :=
  (headTo? bs offset).elim (.error .offBoundary) .ok

/-- The bytes from an offset on, which has to be a boundary. -/
def sliceFrom (bs : List UInt8) (offset : Nat) : Except ByteFault (List UInt8) :=
  (tailFrom? bs offset).elim (.error .offBoundary) .ok

/-- The difference of numbers, of which the second has to be at most the first. -/
def subtract (m n : Nat) : Except ByteFault Nat := if n ≤ m then .ok (m - n) else .error .underflow

/-! ### Boundaries -/

theorem bytes_cons (c : Char) (text : List Char) :
    bytes (c :: text) = String.utf8EncodeChar c ++ bytes text := List.flatMap_cons

theorem bytes_append (s t : List Char) : bytes (s ++ t) = bytes s ++ bytes t := List.flatMap_append

theorem length_bytes (text : List Char) : (bytes text).length = byteCount text := by
  induction text with
  | nil => rfl
  | cons c text ih =>
    rw [bytes_cons, List.length_append, String.length_utf8EncodeChar, ih, byteCount]

theorem bytes_injective {s t : List Char} (h : bytes s = bytes t) : s = t := by
  have hbytes : s.utf8Encode = t.utf8Encode := congrArg List.toByteArray h
  rw [← String.toByteArray_ofList, ← String.toByteArray_ofList, String.toByteArray_inj] at hbytes
  exact String.ofList_injective hbytes

theorem isContinuation_iff {b : UInt8} :
    isContinuation b = true ↔ 128 ≤ b.toNat ∧ b.toNat < 192 := by
  simp [isContinuation, UInt8.le_iff_toNat_le, UInt8.lt_iff_toNat_lt]

theorem toNat_ofNat_mod_add {k base : Nat} (hpos : 0 < k) (h : k + base ≤ 256) (n : Nat) :
    (UInt8.ofNat (n % k + base)).toNat = n % k + base := by
  have hlt := Nat.mod_lt n hpos
  exact UInt8.toNat_ofNat_of_lt' (show n % k + base < 256 by omega)

theorem isContinuation_ofNat (n : Nat) : isContinuation (UInt8.ofNat (n % 64 + 128)) = true := by
  have hlt := Nat.mod_lt n (show 0 < 64 by decide)
  rw [isContinuation_iff, toNat_ofNat_mod_add (by decide) (by decide)]
  omega

theorem le_toNat_ofNat {k base : Nat} (hbase : 192 ≤ base) (hpos : 0 < k) (h : k + base ≤ 256)
    (n : Nat) : 192 ≤ (UInt8.ofNat (n % k + base)).toNat := by
  rw [toNat_ofNat_mod_add hpos h]
  omega

/-- A character of ASCII is one byte. Any other one begins with a byte above all that go on with
characters. -/
theorem utf8EncodeChar_cases (c : Char) :
    c.toNat ≤ 127 ∧ String.utf8EncodeChar c = [UInt8.ofNat c.toNat] ∨
      127 < c.toNat ∧ ∃ b rest, String.utf8EncodeChar c = b :: rest ∧ 192 ≤ b.toNat ∧
        ∀ d ∈ rest, isContinuation d = true := by
  have hlow := isContinuation_ofNat
  show c.val.toNat ≤ 127 ∧ _ ∨ 127 < c.val.toNat ∧ _
  unfold String.utf8EncodeChar
  simp only
  split
  · next h => exact .inl ⟨h, rfl⟩
  next h =>
  refine .inr ⟨Nat.lt_of_not_le h, ?_⟩
  split
  · exact ⟨_, _, rfl, le_toNat_ofNat (k := 32) (by decide) (by decide) (by decide) _,
      List.forall_mem_singleton.2 (hlow _)⟩
  split
  · exact ⟨_, _, rfl, le_toNat_ofNat (k := 16) (by decide) (by decide) (by decide) _,
      List.forall_mem_cons.2 ⟨hlow _, List.forall_mem_singleton.2 (hlow _)⟩⟩
  · exact ⟨_, _, rfl, le_toNat_ofNat (k := 8) (by decide) (by decide) (by decide) _,
      List.forall_mem_cons.2 ⟨hlow _, List.forall_mem_cons.2 ⟨hlow _,
        List.forall_mem_singleton.2 (hlow _)⟩⟩⟩

/-- Of the bytes of a character all but the first go on with it. -/
theorem exists_utf8EncodeChar_eq_cons (c : Char) :
    ∃ b rest, String.utf8EncodeChar c = b :: rest ∧ isContinuation b = false ∧
      ∀ d ∈ rest, isContinuation d = true := by
  have hfirst : ∀ b : UInt8, b.toNat ≤ 127 ∨ 192 ≤ b.toNat → isContinuation b = false := by
    intro b hb
    rw [Bool.eq_false_iff, ne_eq, isContinuation_iff]
    omega
  obtain ⟨hascii, hencode⟩ | ⟨-, b, rest, hencode, hb, hrest⟩ := utf8EncodeChar_cases c
  · have hvalue : (UInt8.ofNat c.toNat).toNat = c.toNat :=
      UInt8.toNat_ofNat_of_lt' (show c.toNat < 256 by omega)
    exact ⟨_, _, hencode, hfirst _ (.inl (hvalue.trans_le hascii)), List.forall_mem_nil _⟩
  · exact ⟨b, rest, hencode, hfirst b (.inr hb), hrest⟩

/-- The start of a text needs no rule of its own. -/
theorem isBoundary_bytes_eq (text : List Char) (offset : Nat) :
    isBoundary (bytes text) offset =
      match (bytes text)[offset]? with
      | some b => !isContinuation b
      | none => offset == (bytes text).length := by
  cases offset with
  | succ offset => rfl
  | zero =>
    cases text with
    | nil => rfl
    | cons c text =>
      obtain ⟨b, rest, hencode, hb, -⟩ := exists_utf8EncodeChar_eq_cons c
      rw [bytes_cons, hencode, List.cons_append, List.getElem?_cons_zero]
      show true = !isContinuation b
      rw [hb]
      rfl

/-- A text can be sliced where it can be cut between characters. -/
theorem isBoundary_bytes (text : List Char) (offset : Nat) :
    isBoundary (bytes text) offset = (cutAt? offset text).isSome := by
  induction text generalizing offset with
  | nil => cases offset <;> rfl
  | cons c text ih =>
    cases offset with
    | zero => rfl
    | succ offset =>
      obtain ⟨b, rest, hencode, -, hrest⟩ := exists_utf8EncodeChar_eq_cons c
      have hsize : (String.utf8EncodeChar c).length = c.utf8Size := String.length_utf8EncodeChar c
      rw [cutAt?]
      split
      · next hle =>
        -- the character is passed over, and with it as many bytes
        have hlength : (bytes (c :: text)).length = c.utf8Size + (bytes text).length := by
          rw [bytes_cons, List.length_append, hsize]
        have hbyte : (bytes (c :: text))[offset + 1]? = (bytes text)[offset + 1 - c.utf8Size]? := by
          rw [bytes_cons, List.getElem?_append_right (by omega), hsize]
        rw [Option.isSome_map, ← ih, isBoundary_bytes_eq, isBoundary_bytes_eq, hbyte, hlength]
        cases (bytes text)[offset + 1 - c.utf8Size]? with
        | some b => rfl
        | none =>
          rw [Bool.eq_iff_iff, beq_iff_eq, beq_iff_eq]
          omega
      · next hlt =>
        have hlt : offset < rest.length := by
          rw [hencode, List.length_cons] at hsize
          omega
        have hbyte : (bytes (c :: text))[offset + 1]? = some rest[offset] := by
          rw [bytes_cons, hencode, List.cons_append, List.getElem?_cons_succ,
            List.getElem?_append_left hlt, List.getElem?_eq_getElem hlt]
        rw [isBoundary_bytes_eq, hbyte]
        show (!isContinuation rest[offset]) = false
        rw [hrest _ (List.getElem_mem hlt)]
        rfl

/-- A slice of a text is a text. -/
theorem headTo?_bytes (text : List Char) (offset : Nat) :
    headTo? (bytes text) offset = (cutAt? offset text).map fun cut => bytes cut.1 := by
  unfold headTo?
  rw [isBoundary_bytes]
  cases hcut : cutAt? offset text with
  | none => rfl
  | some cut =>
    obtain ⟨htext, hcount⟩ := cutAt?_eq_some_iff.1 hcut
    rw [htext, bytes_append, List.take_left' ((length_bytes _).trans hcount)]
    rfl

theorem tailFrom?_bytes (text : List Char) (offset : Nat) :
    tailFrom? (bytes text) offset = (cutAt? offset text).map fun cut => bytes cut.2 := by
  unfold tailFrom?
  rw [isBoundary_bytes]
  cases hcut : cutAt? offset text with
  | none => rfl
  | some cut =>
    obtain ⟨htext, hcount⟩ := cutAt?_eq_some_iff.1 hcut
    rw [htext, bytes_append, List.drop_left' ((length_bytes _).trans hcount)]
    rfl

/-! ## Letters -/

/-- The byte of an ASCII letter in lower case, and any other byte as it is. -/
def lowerByte (b : UInt8) : UInt8 := if 0x41 ≤ b && b ≤ 0x5A then b + 0x20 else b

/-- The bytes agree up to the case of ASCII letters. -/
def sameLetters (bs cs : List UInt8) : Bool := bs.map lowerByte == cs.map lowerByte

theorem lowerByte_of_le {b : UInt8} (h : 128 ≤ b.toNat) : lowerByte b = b := by
  have hletter : ¬ b ≤ 0x5A := by
    rw [UInt8.le_iff_toNat_le]
    show ¬ b.toNat ≤ 90
    omega
  simp [lowerByte, hletter]

/-- Only the bytes of ASCII letters are lowered. -/
theorem map_lowerByte_utf8EncodeChar (c : Char) :
    (String.utf8EncodeChar c).map lowerByte = String.utf8EncodeChar c.toLower := by
  obtain ⟨hascii, -⟩ | ⟨hother, b, rest, hencode, hb, hrest⟩ := utf8EncodeChar_cases c
  · have htable : ∀ n < 128, (String.utf8EncodeChar (Char.ofNat n)).map lowerByte =
        String.utf8EncodeChar (Char.ofNat n).toLower := by decide
    have hchar := htable c.toNat (Nat.lt_succ_of_le hascii)
    rwa [Char.ofNat_toNat] at hchar
  · have hsame : c.toLower = c := by
      unfold Char.toLower
      rw [dif_neg]
      rintro ⟨-, hletter⟩
      have hle : c.toNat ≤ 90 := UInt32.le_iff_toNat_le.1 hletter
      omega
    rw [hsame, hencode, List.map_cons, lowerByte_of_le (by omega)]
    congr 1
    refine (List.map_congr_left fun d hd => ?_).trans (List.map_id _)
    exact lowerByte_of_le (isContinuation_iff.1 (hrest d hd)).1

theorem map_lowerByte_bytes (text : List Char) :
    (bytes text).map lowerByte = bytes (text.map Char.toLower) := by
  induction text with
  | nil => rfl
  | cons c text ih =>
    rw [bytes_cons, List.map_append, map_lowerByte_utf8EncodeChar, ih, List.map_cons, bytes_cons]

theorem sameLetters_bytes_iff {s t : List Char} :
    sameLetters (bytes s) (bytes t) = true ↔ SameSpelling s t := by
  unfold sameLetters SameSpelling
  rw [beq_iff_eq, map_lowerByte_bytes, map_lowerByte_bytes]
  exact ⟨bytes_injective, congrArg bytes⟩

/-! ## Heads and tails -/

/-- What follows a head of as many bytes as the affix that agrees with it. -/
def stripHeadBytes (affix bs : List UInt8) : Except ByteFault (Option (List UInt8)) :=
  match headTo? bs affix.length with
  | none => .ok none
  | some head =>
    if sameLetters head affix then (sliceFrom bs affix.length).map some else .ok none

/-- What precedes a tail of as many bytes as the affix that agrees with it. -/
def stripTailBytes (affix bs : List UInt8) : Except ByteFault (Option (List UInt8)) :=
  if bs.length < affix.length then .ok none
  else
    let split := bs.length - affix.length
    match tailFrom? bs split with
    | none => .ok none
    | some tail => if sameLetters tail affix then (sliceTo bs split).map some else .ok none

theorem sliceTo_bytes {text head rest : List Char} {offset : Nat}
    (h : cutAt? offset text = some (head, rest)) :
    sliceTo (bytes text) offset = .ok (bytes head) := by
  rw [sliceTo, headTo?_bytes, h]
  rfl

theorem sliceFrom_bytes {text head rest : List Char} {offset : Nat}
    (h : cutAt? offset text = some (head, rest)) :
    sliceFrom (bytes text) offset = .ok (bytes rest) := by
  rw [sliceFrom, tailFrom?_bytes, h]
  rfl

/-- Heads found in bytes are those of the characters. -/
theorem stripHeadBytes_bytes (affix text : List Char) :
    stripHeadBytes (bytes affix) (bytes text) = .ok ((dropHead? affix text).map bytes) := by
  rw [← stripHead?_eq_dropHead?, stripHeadBytes, stripHead?, headTo?_bytes, length_bytes]
  cases hcut : cutAt? (byteCount affix) text with
  | none => rfl
  | some cut =>
    simp only [Option.map_some, Option.bind_some, sameLetters_bytes_iff, sliceFrom_bytes hcut]
    split <;> rfl

/-- Tails found in bytes are those of the characters. -/
theorem stripTailBytes_bytes (affix text : List Char) :
    stripTailBytes (bytes affix) (bytes text) = .ok ((dropTail? affix text).map bytes) := by
  simp only [stripTailBytes, length_bytes, tailFrom?_bytes]
  cases hdrop : dropTail? affix text with
  | some stem =>
    -- the text is cut before the tail, which has as many bytes as the affix
    obtain ⟨tail, hspell, rfl⟩ := dropTail?_eq_some_iff.1 hdrop
    have hcount : byteCount (stem ++ tail) = byteCount stem + byteCount affix := by
      rw [← length_bytes, bytes_append, List.length_append, length_bytes, length_bytes,
        hspell.byteCount_eq]
    have hcut : cutAt? (byteCount stem) (stem ++ tail) = some (stem, tail) :=
      cutAt?_eq_some_iff.2 ⟨rfl, rfl⟩
    rw [if_neg (by omega), hcount, Nat.add_sub_cancel, hcut]
    simp only [Option.map_some, sameLetters_bytes_iff.2 hspell, if_true, sliceTo_bytes hcut]
    rfl
  | none =>
    split
    · rfl
    · cases hcut : cutAt? (byteCount text - byteCount affix) text with
      | none => rfl
      | some cut =>
        have hdiffers : ¬ SameSpelling cut.2 affix := fun hspell =>
          dropTail?_eq_none_iff.1 hdrop ⟨cut.1, cut.2, hspell, (cutAt?_eq_some_iff.1 hcut).1⟩
        simp only [Option.map_some, sameLetters_bytes_iff, if_neg hdiffers]
        rfl

end Text

/-! ## Singulars -/

namespace Noun

open Text

/-- The bytes before the last two, if the bytes agree with one of the endings. -/
def dropEsBytes (bs : List UInt8) : List (List UInt8) → Except ByteFault (Option (List UInt8))
  | [] => .ok none
  | ending :: endings => do
    match ← stripTailBytes ending bs with
    | some _ =>
      let offset ← subtract bs.length 2
      return some (← sliceTo bs offset)
    | none => dropEsBytes bs endings

/-- The singular of a word that is kept as bytes: the first rule that fits is applied. -/
def singularBytes (bs : List UInt8) : Except ByteFault (List UInt8) := do
  match ← stripTailBytes (bytes ['i', 'e', 's']) bs with
  | some stem => return stem ++ bytes ['y']
  | none =>
    match ← dropEsBytes bs (esEndings.map bytes) with
    | some stem => return stem
    | none =>
      if 1 < bs.length then return (← stripTailBytes (bytes ['s']) bs).getD bs
      else return bs

/-- The last two letters of an ending in `es` are two bytes, and the text can be sliced before
them. -/
theorem cutAt?_of_endsLike {word : List Char} (h : EndsLike ['e', 's'] word) :
    2 ≤ byteCount word ∧
      ∃ rest, cutAt? (byteCount word - 2) word = some (word.dropLast.dropLast, rest) := by
  obtain ⟨stem, tail, hspell, rfl⟩ := h
  match tail, hspell.length_eq with
  | [c, d], _ =>
    have htail : byteCount [c, d] = 2 := hspell.byteCount_eq
    have hcount : byteCount (stem ++ [c, d]) = byteCount stem + 2 := by
      rw [← length_bytes, bytes_append, List.length_append, length_bytes, length_bytes, htail]
    have hlast : (stem ++ [c, d]).dropLast.dropLast = stem := by simp
    rw [hcount, hlast, Nat.add_sub_cancel]
    exact ⟨Nat.le_add_left .., _, cutAt?_eq_some_iff.2 ⟨rfl, rfl⟩⟩

theorem endsLike_es_of_mem_esEndings {ending word : List Char} (hmem : ending ∈ esEndings)
    (h : EndsLike ending word) : EndsLike ['e', 's'] word := by
  rw [esEndings_eq] at hmem
  obtain ⟨stem, -, rfl⟩ := List.mem_map.1 hmem
  exact h.of_append

theorem dropEsBytes_bytes (word : List Char) {endings : List (List Char)}
    (h : ∀ ending ∈ endings, ending ∈ esEndings) :
    dropEsBytes (bytes word) (endings.map bytes) =
      .ok (if endings.any fun ending => (dropTail? ending word).isSome then
        some (bytes word.dropLast.dropLast) else none) := by
  induction endings with
  | nil => rfl
  | cons ending endings ih =>
    rw [List.forall_mem_cons] at h
    rw [List.map_cons, dropEsBytes, stripTailBytes_bytes, List.any_cons]
    cases hdrop : dropTail? ending word with
    | none =>
      rw [Option.isSome_none, Bool.false_or]
      exact ih h.2
    | some stem =>
      have hends : EndsLike ending word := isSome_dropTail?_iff.1 (by rw [hdrop]; rfl)
      obtain ⟨htwo, rest, hcut⟩ := cutAt?_of_endsLike (endsLike_es_of_mem_esEndings h.1 hends)
      have hoffset : subtract (bytes word).length 2 = .ok (byteCount word - 2) := by
        rw [subtract, length_bytes, if_pos htwo]
      rw [Option.isSome_some, Bool.true_or, if_pos rfl]
      show (subtract (bytes word).length 2 >>= fun offset => _) = _
      rw [hoffset]
      show (sliceTo (bytes word) (byteCount word - 2) >>= fun stem => _) = _
      rw [sliceTo_bytes hcut]
      rfl

/-- The singular of a word's bytes is made of the bytes of its singular. -/
theorem singularBytes_bytes (word : List Char) :
    singularBytes (bytes word) = .ok (bytes (singularChars word)) := by
  rw [singularBytes, stripTailBytes_bytes]
  cases hies : dropTail? ['i', 'e', 's'] word with
  | some stem =>
    rw [singularChars, hies, bytes_append]
    rfl
  | none =>
    show (dropEsBytes (bytes word) (esEndings.map bytes) >>= _) = _
    rw [dropEsBytes_bytes word fun _ h => h, singularChars, hies]
    simp only
    split
    · rfl
    · show (if 1 < (bytes word).length then stripTailBytes (bytes ['s']) (bytes word) >>= _
        else _) = _
      rw [stripTailBytes_bytes, length_bytes]
      -- a word of one byte is kept, which is the case where nothing would be left
      cases hs : dropTail? ['s'] word with
      | none => split <;> rfl
      | some stem =>
        obtain ⟨tail, hspell, htext⟩ := dropTail?_eq_some_iff.1 hs
        have htail : byteCount tail = 1 := hspell.byteCount_eq
        have hcount : byteCount word = byteCount stem + 1 := by
          rw [htext, ← length_bytes, bytes_append, List.length_append, length_bytes, length_bytes,
            htail]
        cases stem with
        | nil =>
          rw [if_neg (by rw [hcount]; decide)]
          rfl
        | cons c stem =>
          have hpos : byteCount (c :: stem) ≠ 0 := by simp [byteCount_eq_zero_iff]
          rw [if_pos (by omega)]
          rfl

/-- **Affixes are found in bytes safely and exactly.** Whatever the script of a text, a tail is
found in its bytes exactly when the text ends in a spelling of the affix, and what is left is the
bytes of what stands before it, of which there is one only; so with heads. A word that ends in `es`
has at least two bytes, the last two of which can be sliced off. So the singular of a word is always
made, and it is the word without its `es`, with `y` for its `ies`, without its `s`, or as it was. -/
theorem byte_affixes_exact :
    (∀ affix text : List Char,
      stripTailBytes (bytes affix) (bytes text) = .ok ((dropTail? affix text).map bytes) ∧
      (∀ stem, stripTailBytes (bytes affix) (bytes text) = .ok (some (bytes stem)) ↔
        ∃ tail, SameSpelling tail affix ∧ text = stem ++ tail) ∧
      (EndsLike affix text → ∃! stem, ∃ tail, SameSpelling tail affix ∧ text = stem ++ tail) ∧
      stripHeadBytes (bytes affix) (bytes text) = .ok ((dropHead? affix text).map bytes) ∧
      ∀ rest, stripHeadBytes (bytes affix) (bytes text) = .ok (some (bytes rest)) ↔
        ∃ head, SameSpelling head affix ∧ text = head ++ rest) ∧
    ∀ word : List Char,
      (∀ ending ∈ esEndings, EndsLike ending word →
        2 ≤ (bytes word).length ∧ isBoundary (bytes word) ((bytes word).length - 2) = true) ∧
      singularBytes (bytes word) = .ok (bytes (singularChars word)) ∧
      SingularOf word (singularChars word) := by
  have hfound : ∀ (found : Option (List Char)) (part : List Char),
      (Except.ok (found.map bytes) : Except ByteFault _) = .ok (some (bytes part)) ↔
        found = some part := by
    intro found part
    rw [Except.ok.injEq, ← Option.map_some,
      (Option.map_injective fun _ _ => bytes_injective).eq_iff]
  refine ⟨fun affix text => ⟨stripTailBytes_bytes affix text, fun stem => ?_, ?_,
    stripHeadBytes_bytes affix text, fun rest => ?_⟩, fun word => ⟨?_, singularBytes_bytes word,
    singularOf_singularChars word⟩⟩
  · rw [stripTailBytes_bytes, hfound, dropTail?_eq_some_iff]
  · rintro ⟨stem, tail, hspell, htext⟩
    refine ⟨stem, ⟨tail, hspell, htext⟩, fun stem' h' => ?_⟩
    have hstem := dropTail?_eq_some_iff.2 ⟨tail, hspell, htext⟩
    exact Option.some.inj ((dropTail?_eq_some_iff.2 h').symm.trans hstem)
  · rw [stripHeadBytes_bytes, hfound, dropHead?_eq_some_iff]
  · intro ending hmem hends
    obtain ⟨htwo, rest, hcut⟩ := cutAt?_of_endsLike (endsLike_es_of_mem_esEndings hmem hends)
    rw [length_bytes, isBoundary_bytes, hcut]
    exact ⟨htwo, rfl⟩

/-- The third byte of `Geéks` is the first half of a character, and the last byte of `Straß` the
second half of one: no affix is found there, and nothing fails. `BüschES` ends in `ches`, so there
is a boundary two bytes before its end. -/
theorem byte_affixes_exact_halves :
    stripHeadBytes (bytes ['G', 'e', 't']) (bytes ['G', 'e', 'é', 'k', 's']) = .ok none ∧
      stripTailBytes (bytes ['s']) (bytes ['S', 't', 'r', 'a', 'ß']) = .ok none ∧
      sliceTo (bytes ['S', 't', 'r', 'a', 'ß']) 5 = .error .offBoundary ∧
      ['c', 'h', 'e', 's'] ∈ esEndings ∧
      EndsLike ['c', 'h', 'e', 's'] ['B', 'ü', 's', 'c', 'h', 'E', 'S'] ∧
      isBoundary (bytes ['B', 'ü', 's', 'c', 'h', 'E', 'S']) 6 = true ∧
      singularBytes (bytes ['B', 'ü', 's', 'c', 'h', 'E', 'S']) =
        .ok (bytes ['B', 'ü', 's', 'c', 'h']) := by
  obtain ⟨haffixes, hwords⟩ := byte_affixes_exact
  obtain ⟨-, -, -, hget, -⟩ := haffixes ['G', 'e', 't'] ['G', 'e', 'é', 'k', 's']
  obtain ⟨hs, -⟩ := haffixes ['s'] ['S', 't', 'r', 'a', 'ß']
  obtain ⟨hcut, hsingular, -⟩ := hwords ['B', 'ü', 's', 'c', 'h', 'E', 'S']
  have hches : ['c', 'h', 'e', 's'] ∈ esEndings := by decide
  have hends : EndsLike ['c', 'h', 'e', 's'] ['B', 'ü', 's', 'c', 'h', 'E', 'S'] :=
    ⟨['B', 'ü', 's'], ['c', 'h', 'E', 'S'], by decide, rfl⟩
  exact ⟨hget, hs, by decide, hches, hends, (hcut _ hches hends).2, hsingular⟩

end Noun

end WrapperGen
