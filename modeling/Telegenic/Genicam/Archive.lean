import Telegenic.Library.Bytes
import Telegenic.Library.Checksum

/-! The archive that a device keeps its description in: how it is written
without compression, and how its first file is read. -/

set_option autoImplicit false

namespace Telegenic.Genicam.Zip

open Library

def eocdMagic : Nat := 0x06054b50
def centralMagic : Nat := 0x02014b50
def localMagic : Nat := 0x04034b50

def methodStored : Nat := 0
def methodDeflate : Nat := 8

def maxUncompressed : Nat := 64 * 1024 * 1024

/-- A little-endian field of an archive. -/
def fieldAt (width : Nat) (buf : List UInt8) (pos : Nat) : Except String Nat :=
  match slice? buf pos (pos + width) with
  | some field => .ok (beNat field.reverse)
  | none => .error "truncated archive"

def u16At := fieldAt 2
def u32At := fieldAt 4

def crcStep (crc : BitVec 32) : BitVec 32 :=
  let mask := -(crc &&& 1)
  crc >>> 1 ^^^ (0xedb88320 &&& mask)

def crc32 (data : List UInt8) : BitVec 32 :=
  ~~~ data.foldl (fun crc byte => crcStep^[8] (crc ^^^ byte.toBitVec.setWidth 32)) (~~~ 0)

def findEocd (zip : List UInt8) : Option Nat :=
  if zip.length < 22 then none
  else
    let start := zip.length - 22
    ((List.range (min start 0xffff + 1)).map (start - ·)).find? fun pos => (u32At zip pos).toOption = some eocdMagic

/-- The first file of an archive, with `inflate` as the decompressor. -/
def extractFirstFile (inflate : List UInt8 → Nat → Except String (List UInt8)) (zip : List UInt8) :
    Except String (List UInt8) := do
  let some eocd := findEocd zip | throw "no end-of-central-directory record"
  let nEntries ← u16At zip (eocd + 10)
  let entry ← u32At zip (eocd + 16)
  if nEntries = 0 then throw "empty archive"
  if (← u32At zip entry) ≠ centralMagic then throw "bad central directory"
  let method ← u16At zip (entry + 10)
  let crc ← u32At zip (entry + 16)
  let compressedSize ← u32At zip (entry + 20)
  let uncompressedSize ← u32At zip (entry + 24)
  let localOffset ← u32At zip (entry + 42)
  if maxUncompressed < uncompressedSize then throw "archive entry too large"
  if (← u32At zip localOffset) ≠ localMagic then throw "bad local file header"
  -- The lengths in the local header decide where the data starts.
  let nameLen ← u16At zip (localOffset + 26)
  let extraLen ← u16At zip (localOffset + 28)
  let dataStart := localOffset + 30 + nameLen + extraLen
  let some data := slice? zip dataStart (dataStart + compressedSize) | throw "truncated archive data"
  let out ←
    if method = methodStored then pure data
    else if method = methodDeflate then (inflate data maxUncompressed).mapError ("deflate: " ++ ·)
    else throw ("unsupported compression method " ++ toString method)
  if out.length ≠ uncompressedSize then
    throw ("archive entry is " ++ toString out.length ++ " bytes, directory says " ++ toString uncompressedSize)
  if (crc32 out).toNat ≠ crc then throw "archive entry fails its CRC-32"
  return out

/-- Little-endian fields, each with its width, one after the other. -/
def record (fields : List (Nat × Nat)) : List UInt8 :=
  fields.flatMap fun field => (beBytes field.1 field.2).reverse

/-- The name `theater.xml`. -/
def name : List UInt8 := [0x74, 0x68, 0x65, 0x61, 0x74, 0x65, 0x72, 0x2e, 0x78, 0x6d, 0x6c]

def localFields (crc : BitVec 32) (size : Nat) : List (Nat × Nat) :=
  [(4, localMagic), (2, 20), (2, 0), (2, 0), (4, 0), (4, crc.toNat), (4, size), (4, size), (2, name.length), (2, 0)]

def centralFields (crc : BitVec 32) (size : Nat) : List (Nat × Nat) :=
  [(4, centralMagic), (2, 20), (2, 20), (2, 0), (2, 0), (4, 0), (4, crc.toNat), (4, size), (4, size), (2, name.length),
    (12, 0), (4, 0), (4, 0)]

def endFields (central centralSize : Nat) : List (Nat × Nat) :=
  [(4, eocdMagic), (4, 0), (2, 1), (2, 1), (4, centralSize), (4, central), (2, 0)]

/-- An archive with one stored file and the checksum `crc`. -/
def storedZip (crc : BitVec 32) (content : List UInt8) : List UInt8 :=
  let entry := record (localFields crc content.length) ++ name ++ content
  let central := record (centralFields crc content.length) ++ name
  entry ++ central ++ record (endFields entry.length central.length)

def buildStoredZip (content : List UInt8) : List UInt8 :=
  storedZip (crc32 content) content

/-! ## Reading what was written -/

theorem fieldAt_record {zip front rest : List UInt8} {fields : List (Nat × Nat)} {start : Nat}
    (isZip : zip = front ++ (record fields ++ rest)) (starts : front.length = start) (index : Nat) {width value : Nat}
    (isField : fields[index]? = some (width, value)) (small : value < 256 ^ width) :
    fieldAt width zip (start + ((fields.take index).map Prod.fst).sum) = .ok value := by
  obtain ⟨inside, isField⟩ := List.getElem?_eq_some_iff.mp isField
  have parted : record fields =
      record (fields.take index) ++ ((beBytes width value).reverse ++ record (fields.drop (index + 1))) := by
    conv_lhs => rw [← List.take_append_drop index fields, List.drop_eq_getElem_cons inside, isField]
    exact List.flatMap_append
  have begins : (front ++ record (fields.take index)).length = start + ((fields.take index).map Prod.fst).sum := by
    simp only [List.length_append, starts, record, List.length_flatMap, List.length_reverse, beBytes_length]
  rw [isZip, parted, List.append_assoc, List.append_assoc, ← List.append_assoc front, fieldAt,
    slice?_append begins (by rw [List.length_reverse, beBytes_length])]
  exact congrArg Except.ok (by rw [List.reverse_reverse, beNat_beBytes, Nat.mod_eq_of_lt small])

section Parts

variable {crc : BitVec 32} {size : Nat} {content : List UInt8} (isSize : content.length = size)
include isSize

theorem entry_length : (record (localFields crc size) ++ name ++ content).length = 41 + size :=
  isSize ▸ List.length_append

theorem storedZip_eq : storedZip crc content = record (localFields crc size) ++ (name ++ (content ++
    (record (centralFields crc size) ++ (name ++ record (endFields (41 + size) 61))))) := by
  rw [storedZip, isSize, entry_length isSize]
  simp only [List.append_assoc]
  rfl

end Parts

variable (inflate : List UInt8 → Nat → Except String (List UInt8))

/-- The directory is found at the end, whatever the content looks like. -/
theorem extract_storedZip {crc : BitVec 32} {content : List UInt8} (small : content.length ≤ maxUncompressed) :
    extractFirstFile inflate (storedZip crc content) =
      if crc32 content = crc then .ok content else .error "archive entry fails its CRC-32" := by
  obtain ⟨size, isSize⟩ : ∃ size, content.length = size := ⟨_, rfl⟩
  have fits : size < 2 ^ 32 := isSize ▸ small.trans_lt (by decide)
  have centralFits : 41 + size < 2 ^ 32 := isSize ▸ (Nat.add_le_add_left small 41).trans_lt (by decide)
  rw [storedZip_eq isSize]
  generalize isZip : record (localFields crc size) ++ _ = zip
  have length : zip.length = 41 + size + 83 := by
    rw [← isZip, ← List.append_assoc, ← List.append_assoc, List.length_append, entry_length isSize]
    rfl
  have data : slice? zip 41 (41 + size) = some content := by
    rw [← isZip, ← List.append_assoc]
    exact slice?_append rfl (congrArg (41 + ·) isSize)
  have inLocal := @fieldAt_record zip [] _ (localFields crc size) 0 isZip.symm rfl
  have inCentral := @fieldAt_record zip _ _ (centralFields crc size) _
    (by rw [← isZip, ← List.append_assoc, ← List.append_assoc]) (entry_length isSize)
  have atEnd := @fieldAt_record zip (record (localFields crc size) ++ name ++ content ++
    (record (centralFields crc size) ++ name)) [] (endFields (41 + size) 61) (41 + size + 61)
    (by simp only [← isZip, List.append_assoc, List.append_nil]) (by rw [List.length_append, entry_length isSize]; rfl)
  have magic : u32At zip (41 + size + 61) = .ok eocdMagic := atEnd 0 rfl (by decide)
  have total : u16At zip (41 + size + 61 + 10) = .ok 1 := atEnd 3 rfl (by decide)
  have isEntry : u32At zip (41 + size + 61 + 16) = .ok (41 + size) := atEnd 5 rfl centralFits
  have centralMagic : u32At zip (41 + size) = .ok centralMagic := inCentral 0 rfl (by decide)
  have method : u16At zip (41 + size + 10) = .ok methodStored := inCentral 4 rfl (by decide)
  have checksum : u32At zip (41 + size + 16) = .ok crc.toNat := inCentral 6 rfl crc.isLt
  have compressed : u32At zip (41 + size + 20) = .ok size := inCentral 7 rfl fits
  have uncompressed : u32At zip (41 + size + 24) = .ok size := inCentral 8 rfl fits
  have offset : u32At zip (41 + size + 42) = .ok 0 := inCentral 11 rfl (by decide)
  have localMagic : u32At zip 0 = .ok localMagic := inLocal 0 rfl (by decide)
  have nameLen : u16At zip 26 = .ok 11 := inLocal 8 rfl (by decide)
  have extraLen : u16At zip 28 = .ok 0 := inLocal 9 rfl (by decide)
  have eocd : findEocd zip = some (41 + size + 61) := by
    simp only [findEocd, length]
    rw [if_neg (by omega), List.range_succ_eq_map, List.map_cons, List.find?_cons_of_pos]
    · rfl
    · exact decide_eq_true (congrArg Except.toOption magic)
  have notLarge : ¬maxUncompressed < size := isSize ▸ Nat.not_lt.mpr small
  simp [extractFirstFile, bind, Except.bind, pure, Except.pure, eocd, total, isEntry, centralMagic, method, checksum,
    compressed, uncompressed, offset, isSize, notLarge, localMagic, nameLen, extraLen, data, BitVec.toNat_inj]
  split <;> rfl

/-! ## The checksum -/

def symbol (byte : UInt8) : BitVec 32 := byte.toBitVec.setWidth 32

theorem symbol_toNat (byte : UInt8) : (symbol byte).toNat = byte.toNat :=
  BitVec.toNat_setWidth_of_le (by decide)

theorem symbol_lt (byte : UInt8) : (symbol byte).toNat < 2 ^ 8 :=
  (symbol_toNat byte).trans_lt byte.toNat_lt

theorem crcStep_eq : crcStep = Feedback.shift 0xedb88320 := by
  funext crc
  simp only [crcStep, Feedback.shift, show crc &&& 1 = _ from BitVec.and_one_eq_setWidth_ofBool_getLsbD]
  cases crc.getLsbD 0 <;> rfl

theorem crc32_eq (data : List UInt8) :
    crc32 data = ~~~ (data.map symbol).foldl (Feedback.absorb 0xedb88320 8) (~~~ 0) := by
  rw [crc32, crcStep_eq, List.foldl_map]
  rfl

/-- A change within four bytes is seen, wherever it is. -/
theorem crc32_ne {front hit other back : List UInt8} (lengths : hit.length = other.length) (within : hit.length ≤ 4)
    (changed : hit ≠ other) : crc32 (front ++ hit ++ back) ≠ crc32 (front ++ other ++ back) := by
  intro same
  simp only [crc32_eq, List.map_append, List.foldl_append, BitVec.not_inj] at same
  have before := Feedback.absorbs_injective (by decide) (by decide) _ same
  have sized : List.Forall₂ (fun first second : BitVec 32 => first.toNat < 2 ^ 8 ∧ second.toNat < 2 ^ 8)
      (hit.map symbol) (other.map symbol) := by
    rw [List.forall₂_map_left_iff, List.forall₂_map_right_iff]
    exact List.forall₂_iff_zip.mpr ⟨lengths, fun _ => ⟨symbol_lt _, symbol_lt _⟩⟩
  have alike := (Feedback.eq_of_absorb (by decide) sized (by rw [List.length_map]; omega) before).2 rfl
  refine changed (List.map_injective_iff.mpr (fun first second equal => ?_) alike)
  have bytes := congrArg BitVec.toNat equal
  rw [symbol_toNat, symbol_toNat] at bytes
  exact UInt8.toNat_inj.mp bytes

/-! ## Stored archives -/

theorem stored_archive_read_back (content : List UInt8) (small : content.length ≤ maxUncompressed) :
    extractFirstFile inflate (buildStoredZip content) = .ok content := by
  rw [buildStoredZip, extract_storedZip inflate small, if_pos rfl]

/-- Also a content that looks like the end of an archive. -/
theorem stored_archive_read_back_endRecord : extractFirstFile (fun _ _ => .error "") (buildStoredZip (record (endFields 0 0))) =
    .ok (record (endFields 0 0)) :=
  stored_archive_read_back _ _ (by decide)

/-- At most four bytes next to each other of the data in an archive are
overwritten with others. -/
theorem stored_archive_damage_detected {front hit other back : List UInt8} (lengths : other.length = hit.length)
    (small : (front ++ other ++ back).length ≤ maxUncompressed) (within : hit.length ≤ 4) (changed : hit ≠ other)
    {before behind : List UInt8} (isZip : buildStoredZip (front ++ hit ++ back) = before ++ (hit ++ behind))
    (starts : before.length = 41 + front.length) :
    extractFirstFile inflate (before ++ (other ++ behind)) = .error "archive entry fails its CRC-32" := by
  have same : (front ++ other ++ back).length = (front ++ hit ++ back).length := by
    simp only [List.length_append, lengths]
  have isDamaged : storedZip (crc32 (front ++ hit ++ back)) (front ++ other ++ back) = before ++ (other ++ behind) := by
    rw [buildStoredZip, storedZip_eq rfl, List.append_assoc front, List.append_assoc front, ← List.append_assoc,
      ← List.append_assoc, List.append_assoc hit] at isZip
    obtain ⟨rfl, isRest⟩ := List.append_inj isZip (List.length_append.trans starts.symm)
    rw [storedZip_eq same, ← List.append_cancel_left isRest]
    simp only [List.append_assoc]
  rw [← isDamaged, extract_storedZip inflate small, if_neg]
  exact (crc32_ne lengths.symm within changed).symm

theorem stored_archive_damage_detected_oneByte : extractFirstFile (fun _ _ => .error "")
    ((buildStoredZip [2]).take 41 ++ ([0] ++ (buildStoredZip [2]).drop 42)) = .error "archive entry fails its CRC-32" :=
  @stored_archive_damage_detected _ [] [2] [0] [] rfl (by decide) (by decide) (by decide) _ _ (by decide +kernel) (by decide)

end Telegenic.Genicam.Zip
