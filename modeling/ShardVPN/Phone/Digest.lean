import ShardVPN.Program.Script

/-! # The digests of the phone client

The script computes UTF-8, SHA-256 and HMAC as the standards define them: its numbers
have the bits of the words, whatever their sign, and its bytes are the bytes.
-/
namespace ShardVPN.Script
open Ecma Sha256

def number (b : UInt8) : ℤ := (b.toNat : ℕ)

/-- The bytes as the script holds them. -/
def numbers (bytes : Bytes) : List ℤ := bytes.map number

@[simp] theorem numbers_append (xs ys : Bytes) : numbers (xs ++ ys) = numbers xs ++ numbers ys := List.map_append

@[simp] theorem numbers_length (bytes : Bytes) : (numbers bytes).length = bytes.length := List.length_map _

@[simp] theorem number_zero : number 0 = 0 := rfl

theorem getD_numbers (bytes : Bytes) (i : ℕ) : (numbers bytes).getD i 0 = number (bytes.getD i 0) := by
  unfold numbers
  rw [← number_zero,List.getD_map]

theorem word_number (b : UInt8) : word (number b) = b.toBitVec.setWidth 32 := by
  apply BitVec.eq_of_toNat_eq
  have hb := b.toNat_lt
  unfold number
  rw [toNat_word (by omega),BitVec.toNat_setWidth,UInt8.toNat_toBitVec]
  omega

/-! ## UTF-8 -/

theorem number_byte {n : ℕ} (h : n < 256) : number (byte n) = (n : ℕ) := by
  unfold number byte
  simp
  omega

/-- The first byte of several: a number below the bits of another is added to it. -/
theorem lead_byte {n j : ℕ} (a k : ℕ) (hn : n < 2 ^ 31) (hj : j < 32) (hk : n / 2 ^ j < 2 ^ k)
    (hbyte : 2 ^ k * a + 2 ^ k ≤ 256) :
    bitOr ((2 ^ k * a : ℕ) : ℤ) (sar n j) = number (byte (2 ^ k * a + n / 2 ^ j)) := by
  have hpow := Nat.two_pow_pos k
  rw [sar_nat hn hj,bitOr_nat (by omega) (by omega),← Nat.two_pow_add_eq_or_of_lt hk,number_byte (by omega)]

/-- A later byte: six bits. -/
theorem tail_byte {n : ℕ} (hn : n < 2 ^ 31) : bitOr 128 (bitAnd n 63) = number (byte (128 + n % 64)) := by
  have hmask : bitAnd n 63 = ((n % 64 : ℕ) : ℤ) := by
    rw [← Nat.and_two_pow_sub_one_eq_mod n 6]
    exact bitAnd_nat hn (by decide)
  have hlead := bitOr_nat (show 2 ^ 6 * 2 < 2 ^ 31 by decide) (show n % 64 < 2 ^ 31 by omega)
  rw [← Nat.two_pow_add_eq_or_of_lt (Nat.mod_lt n (by decide)),← hmask] at hlead
  rw [number_byte (by omega)]
  exact hlead

theorem tail_byte_shifted {n j : ℕ} (hn : n < 2 ^ 31) (hj : j < 32) :
    bitOr 128 (bitAnd (sar n j) 63) = number (byte (128 + n / 2 ^ j % 64)) := by
  rw [sar_nat hn hj]
  exact tail_byte (Nat.lt_of_le_of_lt (Nat.div_le_self _ _) hn)

theorem utf8Point_bytes (c : CodePoint) : utf8Point (c.val : ℕ) = numbers (ShardVPN.utf8Bytes c) := by
  obtain ⟨n,hn⟩ := c
  have hlarge : n < 2 ^ 31 := by omega
  have htail : bitOr 128 (bitAnd n 63) = number (byte (128 + n % 64)) := tail_byte hlarge
  have htail6 : bitOr 128 (bitAnd (sar n 6) 63) = number (byte (128 + n / 64 % 64)) :=
    tail_byte_shifted hlarge (by decide)
  have htail12 : bitOr 128 (bitAnd (sar n 12) 63) = number (byte (128 + n / 4096 % 64)) :=
    tail_byte_shifted hlarge (by decide)
  unfold utf8Point ShardVPN.utf8Bytes
  dsimp only
  by_cases h1 : n < 128
  · rw [if_pos (by omega),if_pos h1]
    exact congrArg (fun b => [b]) (number_byte (by omega)).symm
  rw [if_neg (by omega),if_neg h1]
  by_cases h2 : n < 2048
  · have hlead : bitOr 192 (sar n 6) = number (byte (192 + n / 64)) :=
      lead_byte 6 5 hlarge (by decide) (by omega) (by decide)
    rw [if_pos (by omega),if_pos h2,hlead,htail]
    rfl
  rw [if_neg (by omega),if_neg h2]
  by_cases h3 : n < 65536
  · have hlead : bitOr 224 (sar n 12) = number (byte (224 + n / 4096)) :=
      lead_byte 14 4 hlarge (by decide) (by omega) (by decide)
    rw [if_pos (by omega),if_pos h3,hlead,htail6,htail]
    rfl
  · have hlead : bitOr 240 (sar n 18) = number (byte (240 + n / 262144)) :=
      lead_byte 30 3 hlarge (by decide) (by omega) (by decide)
    rw [if_neg (by omega),if_neg h3,hlead,htail12,htail6,htail]
    rfl

/-- The script encodes texts without surrogates in UTF-8. -/
theorem utf8Bytes_encodes {t : Text} (h : Scalar t) :
    ∃ bytes, encodeUtf8 t = some bytes ∧ Script.utf8Bytes t = numbers bytes := by
  have hscalar : t.any isSurrogate = false := by
    rw [List.any_eq_false]
    intro c hc
    simp [h c hc]
  refine ⟨_,encodeUtf8_eq_some.mpr ⟨hscalar,rfl⟩,?_⟩
  unfold Script.utf8Bytes numbers
  rw [List.map_flatMap]
  exact congrArg t.flatMap (funext utf8Point_bytes)

/-! ## The schedule and the rounds -/

theorem getD_word (l : List ℤ) (i : ℕ) : (l.map word).getD i 0 = word (l.getD i 0) := by
  rw [← word_zero,List.getD_map]

theorem roundConstants_word : roundConstants.map word = constants := by decide

theorem firstHash_word : firstHash.map word = initial := by decide

theorem word_rotr (x : ℤ) {n : ℕ} (hlo : 0 < n) (hhi : n < 32) : word (rotr x n) = (word x).rotateRight n := by
  have hn : n % 32 = n := Nat.mod_eq_of_lt hhi
  have hrest : (32 - n) % 32 = 32 - n := Nat.mod_eq_of_lt (by omega)
  unfold rotr
  simp [BitVec.rotateRight_def,hn,hrest]

theorem word_nextWord (w : List ℤ) (i : ℕ) : word (nextWord w i) = Sha256.nextWord (w.map word) i := by
  unfold nextWord Sha256.nextWord smallSigma0 smallSigma1
  simp only [getD_word]
  simp [word_rotr]
  ac_rfl

theorem word_round (k w : ℤ) (v : Working ℤ) :
    (round k w v).map word = Sha256.round (word k) (word w) (v.map word) := by
  unfold round Sha256.round Working.map bigSigma0 bigSigma1 Sha256.ch Sha256.maj
  simp [word_rotr]

/-- The first words of a schedule are those of the block. -/
theorem schedule_first (block : ℕ → Word) {n : ℕ} (hn : n ≤ 16) : schedule block n = (List.range n).map block := by
  induction n with
  | zero => rfl
  | succ n ih =>
    unfold schedule
    rw [ih (by omega),if_pos (by omega),List.range_succ,List.map_append]
    rfl

/-- The later words of a schedule are computed one after the other. -/
theorem schedule_later (block : ℕ → Word) (n : ℕ) : schedule block (16 + n) =
    (List.range' 16 n).foldl (fun w t => w ++ [Sha256.nextWord w t]) ((List.range 16).map block) := by
  induction n with
  | zero => exact schedule_first block (by decide)
  | succ n ih =>
    rw [List.range'_concat,List.foldl_append,← ih,← Nat.add_assoc,schedule,if_neg (by omega)]
    simp

theorem word_words (padded : List ℤ) (chunk : ℕ) :
    (words padded chunk).map word = schedule (fun t => word (chunkWord padded chunk t)) 64 := by
  have hfold : (List.range' 16 48).foldl (fun w t => w ++ [Sha256.nextWord w t])
      (((List.range 16).map (chunkWord padded chunk)).map word) = (words padded chunk).map word := by
    apply List.foldl_hom
    intro w t
    simp [word_nextWord]
  have hlater := schedule_later (fun t => word (chunkWord padded chunk t)) 48
  rw [hlater,← hfold,List.map_map]
  rfl

theorem word_rounds (padded : List ℤ) (chunk : ℕ) (h : List ℤ) :
    (rounds padded chunk h).map word =
      Sha256.rounds (schedule (fun t => word (chunkWord padded chunk t)) 64) (h.map word) := by
  unfold rounds Sha256.rounds
  rw [← word_zero,← Working.map_ofList]
  symm
  apply List.foldl_hom
  intro v t
  rw [word_zero,word_round,← getD_word,← getD_word,roundConstants_word,word_words]

theorem word_nextHash (padded : List ℤ) (chunk : ℕ) (h : List ℤ) :
    (nextHash padded chunk h).map word = compress (h.map word) (fun t => word (chunkWord padded chunk t)) := by
  unfold nextHash compress
  rw [← word_rounds,Working.toList_map,List.zipWith_map,List.map_zipWith]
  simp

/-! ## Padding -/

theorem padZeros_eq (l : List ℤ) : padZeros l = l ++ List.replicate ((120 - l.length % 64) % 64) 0 := by
  induction l using padZeros.induct with
  | case1 l h ih =>
    have hsucc : (120 - l.length % 64) % 64 = (120 - (l.length + 1) % 64) % 64 + 1 := by omega
    rw [padZeros,if_pos h,ih,hsucc,List.replicate_succ]
    simp
  | case2 l h =>
    have hzero : (120 - l.length % 64) % 64 = 0 := by omega
    rw [padZeros,if_neg h,hzero]
    simp

theorem lengthByte_number (bits i : ℕ) : lengthByte bits i = number (UInt8.ofNat (bits / 2 ^ (i * 8))) := by
  unfold lengthByte number
  rw [bitAnd_byte]
  unfold word
  simp
  omega

theorem padded_numbers (bytes : Bytes) : padded (numbers bytes) = numbers (pad bytes) := by
  have hzeros : (120 - (bytes.length + 1) % 64) % 64 = zeros bytes.length := by
    unfold zeros
    omega
  have hone : number 128 = 128 := rfl
  unfold padded pad lengthBytes
  rw [padZeros_eq]
  simp [numbers,hzeros,hone,lengthByte_number]

theorem pad_length_mod (bytes : Bytes) : (pad bytes).length % 64 = 0 := by
  unfold pad zeros lengthBytes
  simp
  omega

/-! ## Chunks -/

theorem word_chunkWord (bytes : Bytes) (chunk i : ℕ) :
    word (chunkWord (numbers bytes) chunk i) = blockAt bytes chunk i := by
  unfold chunkWord blockAt wordAt wordOf
  simp only [getD_numbers]
  simp [word_number]

/-- The loop over the chunks mixes in one block after the other. -/
theorem word_chunks (bytes : Bytes) (m j : ℕ) (hm : bytes.length = 64 * (j + m)) (h : List ℤ) :
    (chunks (numbers bytes) (64 * j) h).map word =
      (List.range' j m).foldl (fun h j => compress h (blockAt bytes (64 * j))) (h.map word) := by
  induction m generalizing j h with
  | zero =>
    rw [chunks,if_neg (by rw [numbers_length]; omega)]
    rfl
  | succ m ih =>
    rw [chunks,if_pos (by rw [numbers_length]; omega),List.range'_succ,List.foldl_cons]
    have hnext := ih (j + 1) (by omega) (nextHash (numbers bytes) (64 * j) h)
    rw [word_nextHash] at hnext
    simp only [word_chunkWord] at hnext
    exact hnext

theorem wordBytes_numbers (v : ℤ) : wordBytes v = numbers (Sha256.wordBytes (word v)) := by
  unfold wordBytes Sha256.wordBytes numbers number
  simp [bitAnd_byte]

/-- The script computes SHA-256. -/
theorem sha256_numbers (bytes : Bytes) : sha256 (numbers bytes) = numbers (digest bytes) := by
  have hlength : (pad bytes).length = 64 * (0 + (pad bytes).length / 64) := by
    have hmod := pad_length_mod bytes
    omega
  have hchunks := word_chunks (pad bytes) ((pad bytes).length / 64) 0 hlength firstHash
  rw [firstHash_word,← List.range_eq_range'] at hchunks
  unfold sha256 digest
  rw [padded_numbers,← hchunks]
  unfold numbers
  rw [List.map_flatMap,List.flatMap_map]
  exact congrArg (List.flatMap · _) (funext wordBytes_numbers)

/-! ## The keyed hash -/

theorem padKey_eq (key : List ℤ) : padKey key = List.rightpad 64 0 key := by
  unfold List.rightpad
  induction key using padKey.induct with
  | case1 key h ih =>
    have hsucc : 64 - key.length = 64 - (key.length + 1) + 1 := by omega
    rw [padKey,if_pos h,ih,hsucc,List.replicate_succ]
    simp
  | case2 key h =>
    have hzero : 64 - key.length = 0 := by omega
    rw [padKey,if_neg h,hzero]
    simp

theorem bitXor_number (b c : UInt8) : bitXor (number b) (number c) = number (b ^^^ c) := by
  have hb := b.toNat_lt
  have hc := c.toNat_lt
  unfold number
  rw [bitXor_nat (by omega) (by omega),UInt8.toNat_xor]

theorem blockKey_numbers (bytes : Bytes) :
    padKey (if 64 < (numbers bytes).length then sha256 (numbers bytes) else numbers bytes) =
      numbers (blockKey digest 64 bytes) := by
  have hkey : (if 64 < (numbers bytes).length then sha256 (numbers bytes) else numbers bytes) =
      numbers (if 64 < bytes.length then digest bytes else bytes) := by
    rw [numbers_length]
    split
    · exact sha256_numbers bytes
    · rfl
  rw [hkey,padKey_eq]
  unfold blockKey List.rightpad numbers
  simp

theorem digits_of_byte : ∀ n < 256, padStart (toString (n : ℕ) 16) 2 = [hexDigit (n / 16),hexDigit n] := by
  decide +kernel

theorem hex_numbers (bytes : Bytes) : (numbers bytes).flatMap (fun b => padStart (toString b 16) 2) = hex bytes := by
  unfold numbers hex
  rw [List.flatMap_map]
  exact congrArg bytes.flatMap (funext fun b => digits_of_byte b.toNat b.toNat_lt)

/-- The script signs with HMAC. -/
theorem hmacSha256Hex_eq {key message : Text} {keyBytes bytes : Bytes} (hkey : utf8Bytes key = numbers keyBytes)
    (hmessage : utf8Bytes message = numbers bytes) :
    hmacSha256Hex key message = hex (Sha256.hmacSha256 keyBytes bytes) := by
  have hxor : ∀ c : UInt8, (numbers (blockKey digest 64 keyBytes)).map (fun b => bitXor b (number c)) =
      numbers ((blockKey digest 64 keyBytes).map (· ^^^ c)) := by
    intro c
    unfold numbers
    simp [bitXor_number]
  have hinner : (numbers (blockKey digest 64 keyBytes)).map (fun b => bitXor b 0x36) =
      numbers ((blockKey digest 64 keyBytes).map (· ^^^ 0x36)) := hxor 0x36
  have houter : (numbers (blockKey digest 64 keyBytes)).map (fun b => bitXor b 0x5c) =
      numbers ((blockKey digest 64 keyBytes).map (· ^^^ 0x5c)) := hxor 0x5c
  unfold hmacSha256Hex Sha256.hmacSha256 hmac
  dsimp only
  rw [hkey,hmessage,blockKey_numbers,hinner,houter,← numbers_append,sha256_numbers,← numbers_append,sha256_numbers,
    hex_numbers]

end ShardVPN.Script
