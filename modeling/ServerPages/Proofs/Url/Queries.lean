import ServerPages.Proofs.Dictionary
import ServerPages.Url.Form

/-!
# Encoded queries

Text that was encoded is decoded as it was, alone and within a query: encoding leaves none of the
characters that a query is divided at. Of pairs with one name, the last one is what the query gives.
-/

namespace ServerPages

/-! ## The bytes of a character -/

namespace Text.Utf8

theorem charOf?_toNat (c : Char) : charOf? c.val.toNat = some c := by
  have valid : c.val.toNat < 0xD800 ∨ (0xE000 ≤ c.val.toNat ∧ c.val.toNat < 0x110000) := by
    rcases c.valid with low | ⟨high, bounded⟩
    · exact .inl low
    · exact .inr ⟨Nat.succ_le_of_lt high, bounded⟩
  rw [charOf?, if_pos valid]
  exact congrArg some (Char.ofNat_toNat c)

theorem toNat_ofNat_of_lt {value : Nat} (small : value < 256) :
    (UInt8.ofNat value).toNat = value := by
  rw [UInt8.toNat_ofNat']
  exact Nat.mod_eq_of_lt small

theorem le_ofNat_iff {low value : Nat} (bounded : low < 256) (small : value < 256) :
    UInt8.ofNat low ≤ UInt8.ofNat value ↔ low ≤ value := by
  rw [UInt8.le_iff_toNat_le, toNat_ofNat_of_lt bounded, toNat_ofNat_of_lt small]

theorem isContinuation_ofNat {low : Nat} (small : low < 64) :
    isContinuation (UInt8.ofNat (low + 128)) = true := by
  rw [isContinuation, Bool.and_eq_true, decide_eq_true_iff, decide_eq_true_iff]
  exact ⟨(le_ofNat_iff (by decide) (by omega)).mpr (Nat.le_add_left _ _),
    (le_ofNat_iff (by omega) (by decide)).mpr (Nat.add_le_add_right (Nat.le_of_lt_succ small) 128)⟩

theorem lenientContinue?_cons {low : Nat} (small : low < 64) (n bits : Nat) (rest : List UInt8) :
    lenientContinue? (n + 1) bits (UInt8.ofNat (low + 128) :: rest) =
      lenientContinue? n (bits * 64 + low) rest := by
  have value := toNat_ofNat_of_lt (show low + 128 < 256 by omega)
  have bitsOf : (low + 128) % 64 = low := by omega
  rw [lenientContinue?, if_pos (isContinuation_ofNat small), value, bitsOf]

theorem lenientLead?_ofNat {value : Nat} (small : value < 256) :
    lenientLead? (UInt8.ofNat value) =
      if value < 0x80 then some (0, value)
      else if value / 32 = 6 then some (1, value % 32)
      else if value / 16 = 14 then some (2, value % 16)
      else if value / 8 = 30 then some (3, value % 8)
      else none := by
  simp only [lenientLead?, toNat_ofNat_of_lt small, beq_iff_eq]

/-- The bytes of a character start with one that announces the others, and are read as it. -/
theorem exists_lead (c : Char) (rest : List UInt8) :
    ∃ first tail count bits, String.utf8EncodeChar c = first :: tail ∧
      lenientLead? first = some (count, bits) ∧
      lenientContinue? count bits (tail ++ rest) = some (c, rest) := by
  have ends {bits : Nat} (same : bits = c.val.toNat) :
      lenientContinue? 0 bits rest = some (c, rest) := by
    rw [lenientContinue?, same, charOf?_toNat]
    rfl
  have bounded : c.val.toNat < 0x110000 := by
    rcases c.valid with low | ⟨_, bounded⟩
    · exact Nat.lt_trans low (by decide)
    · exact bounded
  have low (value : Nat) : value % 64 < 64 := Nat.mod_lt _ (by decide)
  -- the number of bytes goes with the size of the number
  by_cases one : c.val.toNat ≤ 127
  · refine ⟨_, _, 0, c.val.toNat, if_pos one, ?_, ends rfl⟩
    rw [lenientLead?_ofNat (by omega), if_pos (by omega)]
  by_cases two : c.val.toNat ≤ 2047
  · refine ⟨_, _, 1, c.val.toNat / 64 % 32, (if_neg one).trans (if_pos two), ?_, ?_⟩
    · rw [lenientLead?_ofNat (by omega), if_neg (by omega), if_pos (by omega)]
      congr 2
      omega
    · rw [List.cons_append, lenientContinue?_cons (low _)]
      exact ends (by omega)
  by_cases three : c.val.toNat ≤ 65535
  · refine ⟨_, _, 2, c.val.toNat / 4096 % 16,
      ((if_neg one).trans (if_neg two)).trans (if_pos three), ?_, ?_⟩
    · rw [lenientLead?_ofNat (by omega), if_neg (by omega), if_neg (by omega), if_pos (by omega)]
      congr 2
      omega
    · rw [List.cons_append, lenientContinue?_cons (low _), List.cons_append,
        lenientContinue?_cons (low _)]
      exact ends (by omega)
  · refine ⟨_, _, 3, c.val.toNat / 262144 % 8,
      ((if_neg one).trans (if_neg two)).trans (if_neg three), ?_, ?_⟩
    · rw [lenientLead?_ofNat (by omega), if_neg (by omega), if_neg (by omega), if_neg (by omega),
        if_pos (by omega)]
      congr 2
      omega
    · rw [List.cons_append, lenientContinue?_cons (low _), List.cons_append,
        lenientContinue?_cons (low _), List.cons_append, lenientContinue?_cons (low _)]
      exact ends (by omega)

theorem decodeLenientChars?_encoded {chars : List Char} {fuel : Nat}
    (enough : chars.length ≤ fuel) :
    decodeLenientChars? fuel (chars.flatMap String.utf8EncodeChar) = some chars := by
  induction chars generalizing fuel with
  | nil => cases fuel <;> rfl
  | cons c chars ih =>
      obtain ⟨fuel, rfl⟩ := Nat.exists_eq_add_one_of_ne_zero (Nat.ne_zero_of_lt enough)
      obtain ⟨first, tail, count, bits, bytes, lead, continues⟩ :=
        exists_lead c (chars.flatMap String.utf8EncodeChar)
      rw [List.flatMap_cons, bytes, List.cons_append, decodeLenientChars?, lead]
      dsimp only [Option.bind_eq_bind, Option.bind_some]
      rw [continues]
      dsimp only [Option.bind_some]
      rw [ih (Nat.le_of_succ_le_succ enough)]
      rfl

/-- Bytes of a text are read as the text, also by the decoder that accepts more. -/
theorem decodeLenient?_encode (text : String) : decodeLenient? (encode text) = some text := by
  have enough : text.toList.length ≤ (encode text).length := by
    rw [encode, List.length_flatMap]
    induction text.toList with
    | nil => exact Nat.le_refl _
    | cons c chars ih =>
        have present : 0 < (String.utf8EncodeChar c).length :=
          List.length_pos_iff.mpr String.utf8EncodeChar_ne_nil
        simp only [List.map_cons, List.sum_cons, List.length_cons]
        omega
  rw [decodeLenient?]
  change (decodeLenientChars? _ (text.toList.flatMap String.utf8EncodeChar)).map _ = _
  rw [decodeLenientChars?_encoded enough, Option.map_some, String.ofList_toList]

/-! ## The decoder of well-formed bytes -/

theorem continueWith_cons {low : Nat} (small : low < 64) (n bits : Nat) (rest : List UInt8) :
    continueWith (n + 1) bits (UInt8.ofNat (low + 128) :: rest) =
      continueWith n (bits * 64 + low) rest := by
  have value := toNat_ofNat_of_lt (show low + 128 < 256 by omega)
  have bitsOf : (low + 128) % 64 = low := by omega
  rw [continueWith, if_pos (isContinuation_ofNat small), value, bitsOf]

/-- The lead byte of a number. -/
theorem lead?_ofNat {value : Nat} (small : value < 256) :
    lead? (UInt8.ofNat value) =
      if 0xC2 ≤ value ∧ value ≤ 0xDF then some ⟨value - 0xC0, 0x80, 0xBF, 0⟩
      else if value = 0xE0 then some ⟨0, 0xA0, 0xBF, 1⟩
      else if value = 0xED then some ⟨0xD, 0x80, 0x9F, 1⟩
      else if 0xE1 ≤ value ∧ value ≤ 0xEF then some ⟨value - 0xE0, 0x80, 0xBF, 1⟩
      else if value = 0xF0 then some ⟨0, 0x90, 0xBF, 2⟩
      else if 0xF1 ≤ value ∧ value ≤ 0xF3 then some ⟨value - 0xF0, 0x80, 0xBF, 2⟩
      else if value = 0xF4 then some ⟨4, 0x80, 0x8F, 2⟩
      else none := by
  simp only [lead?, Bool.and_eq_true, decide_eq_true_iff, beq_iff_eq, UInt8.le_iff_toNat_le,
    ← UInt8.toNat_inj, toNat_ofNat_of_lt small]
  rfl

/-- A sequence of more bytes than one, by its lead byte and the byte after it. -/
theorem next_of_lead {value low : Nat} {shape : Lead} (high : 128 ≤ value) (small : value < 256)
    (lead : lead? (UInt8.ofNat value) = some shape) (bounded : low < 64)
    (least : shape.low.toNat ≤ low + 128) (most : low + 128 ≤ shape.high.toNat)
    (rest : List UInt8) :
    next (UInt8.ofNat value) (UInt8.ofNat (low + 128) :: rest) =
      continueWith shape.further (shape.bits * 64 + low) rest := by
  have same := toNat_ofNat_of_lt (show low + 128 < 256 by omega)
  have above : ¬ UInt8.ofNat value < 0x80 := by
    rw [UInt8.lt_iff_toNat_lt, toNat_ofNat_of_lt small]
    exact Nat.not_lt.mpr high
  have between : (shape.low ≤ UInt8.ofNat (low + 128) && UInt8.ofNat (low + 128) ≤ shape.high) =
      true := by
    rw [Bool.and_eq_true, decide_eq_true_iff, decide_eq_true_iff, UInt8.le_iff_toNat_le,
      UInt8.le_iff_toNat_le, same]
    exact ⟨least, most⟩
  have bitsOf : (low + 128) % 64 = low := by omega
  rw [next.eq_def, if_neg above, lead]
  dsimp only
  rw [if_pos between, same, bitsOf]

/-- The lead byte of a sequence of three tells the number's first bits and takes the byte after it:
what is too small for three bytes and what is no character is left out. -/
theorem exists_lead_of_three {number : Nat} (more : 2047 < number) (few : number ≤ 65535)
    (valid : number < 0xD800 ∨ 0xE000 ≤ number ∧ number < 0x110000) :
    ∃ shape, lead? (UInt8.ofNat (number / 4096 % 16 + 224)) = some shape ∧
      shape.low.toNat ≤ number / 64 % 64 + 128 ∧ number / 64 % 64 + 128 ≤ shape.high.toNat ∧
      shape.bits = number / 4096 ∧ shape.further = 1 := by
  have lead := lead?_ofNat (show number / 4096 % 16 + 224 < 256 by omega)
  rw [if_neg (by omega)] at lead
  split at lead
  · exact ⟨_, lead, show 0xA0 ≤ _ by omega, show _ ≤ 0xBF by omega, show 0 = _ by omega, rfl⟩
  split at lead
  · exact ⟨_, lead, show 0x80 ≤ _ by omega, show _ ≤ 0x9F by omega, show 0xD = _ by omega, rfl⟩
  rw [if_pos (by omega)] at lead
  exact ⟨_, lead, show 0x80 ≤ _ by omega, show _ ≤ 0xBF by omega, show _ + 224 - 0xE0 = _ by omega,
    rfl⟩

/-- So does the lead byte of a sequence of four, up to the last character. -/
theorem exists_lead_of_four {number : Nat} (more : 65535 < number) (valid : number < 0x110000) :
    ∃ shape, lead? (UInt8.ofNat (number / 262144 % 8 + 240)) = some shape ∧
      shape.low.toNat ≤ number / 4096 % 64 + 128 ∧ number / 4096 % 64 + 128 ≤ shape.high.toNat ∧
      shape.bits = number / 262144 ∧ shape.further = 2 := by
  have lead := lead?_ofNat (show number / 262144 % 8 + 240 < 256 by omega)
  rw [if_neg (by omega), if_neg (by omega), if_neg (by omega), if_neg (by omega)] at lead
  split at lead
  · exact ⟨_, lead, show 0x90 ≤ _ by omega, show _ ≤ 0xBF by omega, show 0 = _ by omega, rfl⟩
  split at lead
  · exact ⟨_, lead, show 0x80 ≤ _ by omega, show _ ≤ 0xBF by omega,
      show _ + 240 - 0xF0 = _ by omega, rfl⟩
  rw [if_pos (by omega)] at lead
  exact ⟨_, lead, show 0x80 ≤ _ by omega, show _ ≤ 0x8F by omega, show 4 = _ by omega, rfl⟩

/-- The bytes of a character are read as it, whatever follows. -/
theorem exists_next (c : Char) (rest : List UInt8) :
    ∃ first tail, String.utf8EncodeChar c = first :: tail ∧
      next first (tail ++ rest) = (some c, rest) := by
  have ends {bits : Nat} (same : bits = c.val.toNat) :
      continueWith 0 bits rest = (some c, rest) := by
    rw [continueWith, same]
    exact congrArg (some ·, rest) (Char.ofNat_toNat c)
  have valid : c.val.toNat < 0xD800 ∨ 0xE000 ≤ c.val.toNat ∧ c.val.toNat < 0x110000 := by
    rcases c.valid with low | ⟨high, bounded⟩
    · exact .inl low
    · exact .inr ⟨Nat.succ_le_of_lt high, bounded⟩
  have low (value : Nat) : value % 64 < 64 := Nat.mod_lt _ (by decide)
  -- the number of bytes goes with the size of the number
  by_cases one : c.val.toNat ≤ 127
  · refine ⟨_, _, if_pos one, ?_⟩
    have same := toNat_ofNat_of_lt (show c.val.toNat < 256 by omega)
    have below : UInt8.ofNat c.val.toNat < 0x80 := by
      rw [UInt8.lt_iff_toNat_lt, same]
      exact Nat.lt_succ_of_le one
    rw [next.eq_def, if_pos below, same]
    exact congrArg (some ·, rest) (Char.ofNat_toNat c)
  by_cases two : c.val.toNat ≤ 2047
  · have lead := (lead?_ofNat (show c.val.toNat / 64 % 32 + 192 < 256 by omega)).trans
      (if_pos (by omega))
    refine ⟨_, _, (if_neg one).trans (if_pos two), ?_⟩
    rw [List.cons_append, next_of_lead (by omega) (by omega) lead (low _)
      (show 0x80 ≤ _ by omega) (show _ ≤ 0xBF by omega)]
    exact ends (show (_ + 192 - 0xC0) * 64 + _ = _ by omega)
  by_cases three : c.val.toNat ≤ 65535
  · obtain ⟨shape, lead, least, most, bits, further⟩ :=
      exists_lead_of_three (Nat.lt_of_not_le two) three valid
    refine ⟨_, _, ((if_neg one).trans (if_neg two)).trans (if_pos three), ?_⟩
    rw [List.cons_append, next_of_lead (by omega) (by omega) lead (low _) least most, further, bits,
      List.cons_append, continueWith_cons (low _)]
    exact ends (by omega)
  · obtain ⟨shape, lead, least, most, bits, further⟩ :=
      exists_lead_of_four (Nat.lt_of_not_le three) (by omega)
    refine ⟨_, _, ((if_neg one).trans (if_neg two)).trans (if_neg three), ?_⟩
    rw [List.cons_append, next_of_lead (by omega) (by omega) lead (low _) least most, further, bits,
      List.cons_append, continueWith_cons (low _), List.cons_append, continueWith_cons (low _)]
    exact ends (by omega)

/-- Bytes of a text are read as the text. -/
theorem decode?_encode (text : String) : decode? (encode text) = some text := by
  have chars (chars : List Char) :
      decodeChars? (chars.flatMap String.utf8EncodeChar) = some chars := by
    induction chars with
    | nil => rw [List.flatMap_nil, decodeChars?]
    | cons c chars ih =>
        obtain ⟨first, tail, bytes, reads⟩ := exists_next c (chars.flatMap String.utf8EncodeChar)
        rw [List.flatMap_cons, bytes, List.cons_append, decodeChars?, reads]
        dsimp only [Option.bind_eq_bind, Option.bind_some]
        rw [ih]
        rfl
  rw [decode?, encode, chars, Option.map_some, String.ofList_toList]

end Text.Utf8

/-! ## Encoded text -/

namespace Url

open Text

/-- The digits of a byte are read as the byte. -/
theorem byteOfDigits?_triplet (byte : UInt8) :
    byteOfDigits? (capitalHexDigit (byte.toNat / 16)) (capitalHexDigit (byte.toNat % 16)) =
      some byte := by
  have digit : ∀ value, value < 16 → hexValue? (capitalHexDigit value) = some value := by decide
  have below : byte.toNat < 256 := byte.toNat_lt
  have whole : byte.toNat / 16 * 16 + byte.toNat % 16 = byte.toNat := by omega
  rw [byteOfDigits?, digit _ (by omega), digit _ (by omega)]
  change some (UInt8.ofNat (byte.toNat / 16 * 16 + byte.toNat % 16)) = some byte
  rw [whole, UInt8.ofNat_toNat]

theorem bytes?_triplet (byte : UInt8) (rest : List Char) :
    bytes? (triplet byte ++ rest) = (bytes? rest).map (byte :: ·) := by
  change bytes? ('%' :: _ :: _ :: rest) = _
  rw [bytes?, byteOfDigits?_triplet]
  cases bytes? rest <;> rfl

theorem bytes?_triplets (bytes : List UInt8) (rest : List Char) :
    bytes? (bytes.flatMap triplet ++ rest) = (bytes? rest).map (bytes ++ ·) := by
  induction bytes with
  | nil =>
      rw [List.flatMap_nil, List.nil_append]
      cases bytes? rest <;> rfl
  | cons byte bytes ih =>
      rw [List.flatMap_cons, List.append_assoc, bytes?_triplet, ih]
      cases bytes? rest <;> rfl

theorem bytes?_of_ne {c : Char} (plain : c ≠ '%') (rest : List Char) :
    bytes? (c :: rest) = (bytes? rest).map (String.utf8EncodeChar c ++ ·) := by
  rw [bytes?, if_neg plain]
  · cases bytes? rest <;> rfl
  · intro _ _ _ same
    exact absurd same plain

/-- A written character stands for its bytes. -/
theorem bytes?_encodedChar (c : Char) (rest : List Char) :
    bytes? (encodedChar c ++ rest) = (bytes? rest).map (String.utf8EncodeChar c ++ ·) := by
  unfold encodedChar
  split
  · rename_i plain
    refine bytes?_of_ne ?_ rest
    rintro rfl
    cases plain
  · exact bytes?_triplets _ rest

theorem bytes?_encode (text : String) : bytes? (encode text).toList = some (Utf8.encode text) := by
  rw [encode, String.toList_ofList, Utf8.encode]
  induction text.toList with
  | nil => rfl
  | cons c chars ih =>
      rw [List.flatMap_cons, bytes?_encodedChar, ih]
      rfl

theorem decode?_encode (text : String) : decode? (encode text) = some text := by
  rw [decode?, bytes?_encode]
  exact Utf8.decodeLenient?_encode text

/-! ## Characters that are left -/

/-- Only plain characters and percent signs are written. -/
theorem mem_encodedChar {c written : Char} (member : written ∈ encodedChar c) :
    isPlain written = true ∨ written = '%' := by
  have digit : ∀ value, value < 16 → isPlain (capitalHexDigit value) = true := by decide
  unfold encodedChar at member
  split at member
  · rename_i plain
    rw [List.mem_singleton.mp member]
    exact .inl plain
  · obtain ⟨byte, _, inside⟩ := List.mem_flatMap.mp member
    have below : byte.toNat < 256 := byte.toNat_lt
    simp only [triplet, List.mem_cons, List.not_mem_nil, or_false] at inside
    rcases inside with rfl | rfl | rfl
    · exact .inr rfl
    · exact .inl (digit _ (by omega))
    · exact .inl (digit _ (by omega))

/-- A reserved character is never written. -/
theorem not_mem_encode {c : Char} (reserved : isReserved c = true) (other : c ≠ '%')
    (text : String) : c ∉ (encode text).toList := by
  rw [encode, String.toList_ofList]
  intro member
  obtain ⟨_, _, written⟩ := List.mem_flatMap.mp member
  rcases mem_encodedChar written with plain | percent
  · simp [isPlain, reserved] at plain
  · exact other percent

theorem formDecode?_encode (text : String) : formDecode? (encode text) = some text := by
  have noPlus : '+' ∉ (encode text).toList := not_mem_encode rfl (by decide) text
  have kept : plusToSpace (encode text).toList = (encode text).toList := by
    refine (List.map_congr_left fun c member => ?_).trans (List.map_id _)
    have different : c ≠ '+' := by
      rintro rfl
      exact noPlus member
    exact if_neg different
  rw [formDecode?, kept, String.ofList_toList, decode?_encode]

/-! ## Queries -/

def encodePair (pair : String × String) : List Char :=
  (encode pair.1).toList ++ '=' :: (encode pair.2).toList

def encodeQuery (pairs : List (String × String)) : String :=
  String.ofList (joinWith '&' (pairs.map encodePair))

theorem encodePair_ne_nil (pair : String × String) : encodePair pair ≠ [] :=
  List.append_ne_nil_of_right_ne_nil _ (List.cons_ne_nil _ _)

theorem not_mem_encodePair (pair : String × String) : '&' ∉ encodePair pair := by
  have parts := fun text => not_mem_encode (c := '&') rfl (by decide) text
  rw [encodePair, List.mem_append, List.mem_cons, not_or, not_or]
  exact ⟨parts _, by decide, parts _⟩

theorem rawPairs_encodeQuery (pairs : List (String × String)) :
    rawPairs (encodeQuery pairs).toList =
      pairs.map fun pair => ((encode pair.1).toList, (encode pair.2).toList) := by
  rw [encodeQuery, String.toList_ofList]
  cases pairs with
  | nil => rfl
  | cons pair pairs =>
      have apart : splitAt '&' (joinWith '&' ((pair :: pairs).map encodePair)) =
          (pair :: pairs).map encodePair := by
        refine splitAt_joinWith (List.cons_ne_nil _ _) fun part (member : part ∈ List.map _ _) => ?_
        obtain ⟨pair, _, rfl⟩ := List.mem_map.mp member
        exact not_mem_encodePair pair
      have kept : ((pair :: pairs).map encodePair).filter (fun part => !part.isEmpty) =
          (pair :: pairs).map encodePair := by
        apply List.filter_eq_self.mpr
        intro part member
        obtain ⟨pair, _, rfl⟩ := List.mem_map.mp member
        simp [encodePair_ne_nil]
      rw [rawPairs, apart, kept, List.map_map]
      apply List.map_congr_left
      intro pair _
      have unequal : '=' ∉ (encode pair.1).toList := not_mem_encode rfl (by decide) _
      simp [encodePair, splitOnce_append unequal]

theorem decodePair?_encoded (pair : String × String) :
    decodePair? ((encode pair.1).toList, (encode pair.2).toList) = some pair := by
  simp [decodePair?, String.ofList_toList, formDecode?_encode]

theorem mapM_decodePair? (pairs : List (String × String)) :
    (pairs.map fun pair => ((encode pair.1).toList, (encode pair.2).toList)).mapM decodePair? =
      some pairs := by
  induction pairs with
  | nil => rfl
  | cons pair pairs ih =>
      rw [List.map_cons, List.mapM_cons, decodePair?_encoded, ih]
      rfl

theorem parseQuery?_encodeQuery (pairs : List (String × String)) :
    parseQuery? (encodeQuery pairs) = some (Dictionary.ofPairs pairs) := by
  rw [parseQuery?, rawPairs_encodeQuery, mapM_decodePair?]
  rfl

/-- Decoding undoes encoding: a text is decoded as it was, by itself and as a component of a form,
and the query of pairs gives each name once, with the value of the last pair that has it. -/
theorem decode_encoded (text : String) (pairs : List (String × String)) :
    decode? (encode text) = some text ∧ formDecode? (encode text) = some text ∧
      ∃ entries, parseQuery? (encodeQuery pairs) = some entries ∧ entries.Increasing ∧
        ∀ name, entries.find? name = (pairs.reverse.find? (·.1 = name)).map (·.2) :=
  ⟨decode?_encode text, formDecode?_encode text, _, parseQuery?_encodeQuery pairs,
    Dictionary.increasing_ofPairs pairs, Dictionary.find?_ofPairs_eq_last pairs⟩

end Url

end ServerPages
