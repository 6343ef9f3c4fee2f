import Mathlib.Algebra.Group.Nat.Defs
import TwinScreen.Deflate.Inflate
import TwinScreen.Deflate.Stored
import TwinScreen.Proofs.Bytes

/-!
# Stored data is decompressed

Bits of whole bytes are read as the bytes that stand there. So a stored block gives its bytes, and
stored data, cut into any pieces, gives the data that was stored (`inflate_store`).
-/
namespace TwinScreen.Deflate

/-! ## Bits of bytes -/

namespace Reader

/-- Bits within one byte are digits of its number. -/
theorem bits?_of_byte {r : Reader} {b : UInt8} {k j : Nat} (hstop : k < r.stop)
    (hbyte : r.data[k]? = some b) (hposition : r.position = 8 * k + j) (count : Nat)
    (hroom : j + count ≤ 8) :
    r.bits? count =
      some (b.toNat / 2 ^ j % 2 ^ count, { r with position := r.position + count }) := by
  induction count generalizing r j with
  | zero => simp [bits?, Nat.mod_one]
  | succ count ih =>
    have hbit : r.bit? = some (b.toNat / 2 ^ j % 2, { r with position := r.position + 1 }) := by
      unfold bit?
      rw [show r.position / 8 = k by omega, show r.position % 8 = j by omega, if_pos hstop, hbyte]
      dsimp only
      rw [Nat.shiftRight_eq_div_pow]
    have hothers := ih (r := { r with position := r.position + 1 }) (j := j + 1) hstop hbyte
      (by simp only; omega) (by omega)
    have hsplit : b.toNat / 2 ^ j % 2 ^ (count + 1) =
        b.toNat / 2 ^ j % 2 + 2 * (b.toNat / 2 ^ (j + 1) % 2 ^ count) := by
      rw [Nat.pow_succ', Nat.mod_mul, Nat.div_div_eq_div_mul, ← Nat.pow_succ]
    simp only [bits?, hbit, hothers, hsplit, Option.bind_eq_bind, Option.bind_some, Option.pure_def]
    rw [Nat.add_assoc, Nat.add_comm 1 count]

/-- Bits that are read in two parts make one number. -/
theorem bits?_add (r : Reader) (m n : Nat) :
    r.bits? (m + n) = (r.bits? m).bind fun low => (low.2.bits? n).bind fun high =>
      some (low.1 + 2 ^ m * high.1, high.2) := by
  induction m generalizing r with
  | zero => cases h : r.bits? n <;> simp [bits?, h]
  | succ m ih =>
    rw [Nat.succ_add]
    cases hbit : r.bit? with
    | none => simp [bits?, hbit]
    | some first =>
      simp only [bits?, hbit, ih, Option.bind_eq_bind, Option.bind_some, Option.pure_def,
        Option.bind_assoc]
      refine congrArg _ (funext fun low => congrArg _ (funext fun high => ?_))
      rw [Nat.pow_succ', Nat.mul_add, Nat.mul_assoc, Nat.add_assoc]

/-- The number of bytes in a row, the lowest first. -/
def littleNumber : List UInt8 → Nat
  | [] => 0
  | b :: more => b.toNat + 256 * littleNumber more

/-- The bits of whole bytes give their number. -/
theorem bits?_of_hasBytes {r : Reader} {k : Nat} {bytes : List UInt8}
    (h : HasBytes r.data k bytes) (hstop : k + bytes.length ≤ r.stop)
    (hposition : r.position = 8 * k) :
    r.bits? (8 * bytes.length) =
      some (littleNumber bytes, { r with position := 8 * (k + bytes.length) }) := by
  induction bytes generalizing r k with
  | nil =>
    simp only [List.length_nil, Nat.mul_zero, Nat.add_zero, bits?, littleNumber, ← hposition]
  | cons b more ih =>
    rw [List.length_cons] at hstop
    have hsplit : HasBytes r.data k ([b] ++ more) := h
    obtain ⟨-, hmore⟩ := hasBytes_append.mp hsplit
    have hbyte : r.data[k]? = some b := h.getElem?_start
    have hlow := bits?_of_byte (j := 0) (by omega) hbyte hposition 8 (by omega)
    have hhigh := ih (r := { r with position := r.position + 8 }) hmore (by simp; omega)
      (by simp [hposition]; omega)
    rw [List.length_cons, Nat.mul_succ, Nat.add_comm, bits?_add, hlow, Option.bind_some]
    dsimp only
    rw [hhigh, Option.bind_some, List.length_singleton, Nat.pow_zero, Nat.div_one,
      Nat.mod_eq_of_lt b.toNat_lt, Nat.add_assoc k, Nat.add_comm 1]
    rfl

end Reader

/-! ## One stored block -/

/-- How a block says the length of its bytes. -/
def blockLength (n : Nat) : List UInt8 := littleWord n ++ littleWord (storedMax - n)

@[simp] theorem length_blockLength (n : Nat) : (blockLength n).length = 4 := rfl

theorem storedBlock_eq (last : Bool) (bytes : List UInt8) :
    storedBlock last bytes =
      [if last then 1 else 0] ++ (blockLength bytes.length ++ bytes) := rfl

theorem length_storedBlock (last : Bool) (bytes : List UInt8) :
    (storedBlock last bytes).length = 5 + bytes.length := by
  simp only [storedBlock_eq, List.length_append, length_blockLength, List.length_singleton]
  omega

/-- The length of a block and its complement are read as one number. -/
theorem ofBits_blockLength {r : Reader} {k n : Nat} (hn : n ≤ storedMax)
    (h : HasBytes r.data k (blockLength n)) (hstop : k + 4 ≤ r.stop)
    (hposition : r.position = 8 * k) :
    Progress.ofBits r 32 =
      .going (n + 65536 * (storedMax - n)) { r with position := 8 * (k + 4) } := by
  have hnumber : Reader.littleNumber (blockLength n) = n + 65536 * (storedMax - n) := by
    unfold storedMax at *
    simp only [blockLength, storedMax, littleWord, List.cons_append, List.nil_append,
      Reader.littleNumber, UInt8.toNat_ofNat']
    omega
  have hread := Reader.bits?_of_hasBytes h hstop hposition
  rw [length_blockLength, hnumber] at hread
  rw [Progress.ofBits, hread]

/-- One of the bits in front of a block says whether it is the last one, the others that it is
stored. -/
theorem ofBits_kind {r : Reader} {k : Nat} {last : Bool} (hstop : k < r.stop)
    (h : r.data[k]? = some (if last then 1 else 0)) (hposition : r.position = 8 * k) :
    Progress.ofBits r 3 =
      .going (if last then 1 else 0) { r with position := r.position + 3 } := by
  have hread := Reader.bits?_of_byte (j := 0) hstop h hposition 3 (by omega)
  rw [Progress.ofBits, hread]
  cases last <;> rfl

/-- The reader has come to a place. All data may still be read from there, unless there are enough
bytes. -/
structure Behind (r : Reader) (place : Nat) (enough : Prop) (rest : Reader) : Prop where
  data_eq : rest.data = r.data
  position_eq : rest.position = 8 * place
  stop_eq : ¬ enough → rest.stop = r.stop

/-- A stored block is read back where it stands, and the reader is behind it. -/
theorem readStored_of_hasBytes {r : Reader} {k wanted : Nat} {done : Array UInt8}
    {bytes : List UInt8} (hlength : bytes.length ≤ storedMax) (hposition : r.align.position = 8 * k)
    (h : HasBytes r.data k (blockLength bytes.length ++ bytes))
    (hstop : k + 4 + bytes.length ≤ r.stop) (hwanted : done.size + bytes.length ≤ wanted) :
    ∃ rest, readStored wanted done r = ⟨done ++ bytes.toArray, .ok rest⟩ ∧
      Behind r (k + 4 + bytes.length) (wanted ≤ done.size + bytes.length) rest := by
  obtain ⟨hsaid, hbytes⟩ := hasBytes_append.mp h
  have hroom : k + 4 ≤ r.align.stop := Nat.le_trans (Nat.le_add_right _ _) hstop
  have hextract : r.data.extract (k + 4) (k + 4 + bytes.length) = bytes.toArray := hbytes.extract_eq
  unfold readStored
  rw [ofBits_blockLength (r := r.align) hlength hsaid hroom hposition]
  unfold storedMax at *
  have hmod : (bytes.length + 65536 * (65535 - bytes.length)) % 65536 = bytes.length := by omega
  have hdiv : (bytes.length + 65536 * (65535 - bytes.length)) / 65536 = 65535 - bytes.length := by
    omega
  dsimp only [Reader.byteIndex, Reader.skipBytes, Reader.align]
  rw [hmod, hdiv, if_neg (by simp), Nat.min_eq_left (by omega),
    Nat.mul_div_cancel_left _ (by omega), if_pos hstop, hextract, if_pos rfl]
  have hplace : 8 * (k + 4) + 8 * bytes.length = 8 * (k + 4 + bytes.length) := by omega
  refine ⟨_, rfl, ?_⟩
  split
  · rename_i henough
    rw [Array.size_append, List.size_toArray] at henough
    exact ⟨rfl, hplace, fun h => absurd henough h⟩
  · exact ⟨rfl, hplace, fun _ => rfl⟩

/-- Reading a stored block goes on behind it with its bytes, or ends with them. -/
theorem readBlocks_storedBlock (wanted : Nat) (done : Array UInt8) {r : Reader} {k : Nat}
    {last : Bool} {bytes : List UInt8} (hlength : bytes.length ≤ storedMax)
    (hposition : r.position = 8 * k) (h : HasBytes r.data k (storedBlock last bytes))
    (hstop : k + (storedBlock last bytes).length ≤ r.stop)
    (hwanted : done.size + bytes.length ≤ wanted) (fuel : Nat) :
    ∃ rest, Behind r (k + (storedBlock last bytes).length)
        (wanted ≤ done.size + bytes.length) rest ∧
      readBlocks wanted done r (fuel + 1) =
        if last then
          ⟨done ++ bytes.toArray,
            if rest.align.byteIndex + 4 ≤ rest.stop then .complete else .partially⟩
        else readBlocks wanted (done ++ bytes.toArray) rest fuel := by
  rw [length_storedBlock] at hstop ⊢
  rw [storedBlock_eq] at h
  obtain ⟨hfirst, hbody⟩ := hasBytes_append.mp h
  have hhas : r.has 10 = true := by
    simp only [Reader.has, hposition, decide_eq_true_eq]
    omega
  have hkind := ofBits_kind (by omega) hfirst.getElem?_start hposition
  obtain ⟨rest, hstored, hrest⟩ := readStored_of_hasBytes (k := k + 1)
    (r := { r with position := r.position + 3 }) hlength
    (by simp only [Reader.align, hposition]; omega) hbody (by simp only; omega) hwanted
  refine ⟨rest, ⟨hrest.data_eq, ?_, hrest.stop_eq⟩, ?_⟩
  · rw [hrest.position_eq]
    omega
  · have hblock : readBlock 0 wanted done { r with position := r.position + 3 } =
        ⟨done ++ bytes.toArray, .ok rest⟩ := hstored
    have hzero : (if last then 1 else 0) / 2 = 0 := by cases last <;> rfl
    rw [readBlocks, hhas, hkind, if_neg (by simp)]
    dsimp only
    rw [hzero, hblock]
    cases last <;> rfl

/-! ## All stored blocks -/

theorem length_le_storedBlocks (bytes : List UInt8) :
    bytes.length ≤ (storedBlocks bytes).length := by
  induction bytes using storedBlocks.induct with
  | case1 bytes hfits =>
    rw [storedBlocks, dif_pos hfits, length_storedBlock]
    omega
  | case2 bytes hlong ih =>
    rw [storedBlocks, dif_neg hlong, List.length_append, length_storedBlock, List.length_take]
    rw [List.length_drop] at ih
    omega

/-- Stored blocks are decompressed to what was stored. -/
theorem readBlocks_storedBlocks (bytes : List UInt8) (done : Array UInt8) {r : Reader}
    {k fuel : Nat} (hposition : r.position = 8 * k) (h : HasBytes r.data k (storedBlocks bytes))
    (hstop : k + (storedBlocks bytes).length ≤ r.stop) (hfuel : bytes.length < fuel) :
    ∃ ending, (ending = .complete ∨ ending = .partially) ∧
      readBlocks (done.size + bytes.length) done r fuel = ⟨done ++ bytes.toArray, ending⟩ := by
  induction bytes using storedBlocks.induct generalizing r k done fuel with
  | case1 bytes hfits =>
    rw [storedBlocks, dif_pos hfits] at h hstop
    obtain ⟨fuel, rfl⟩ := Nat.exists_eq_succ_of_ne_zero (Nat.ne_zero_of_lt hfuel)
    obtain ⟨rest, -, hblocks⟩ :=
      readBlocks_storedBlock _ done hfits hposition h hstop (Nat.le_refl _) fuel
    rw [hblocks, if_pos rfl]
    refine ⟨_, ?_, rfl⟩
    split <;> simp
  | case2 bytes hlong ih =>
    have hlength : (bytes.take storedMax).length = storedMax := by
      rw [List.length_take]
      omega
    rw [storedBlocks, dif_neg hlong] at h hstop
    rw [List.length_append] at hstop
    obtain ⟨hfirst, hmore⟩ := hasBytes_append.mp h
    obtain ⟨fuel, rfl⟩ := Nat.exists_eq_succ_of_ne_zero (Nat.ne_zero_of_lt hfuel)
    obtain ⟨rest, hrest, hblocks⟩ := readBlocks_storedBlock (done.size + bytes.length) done
      (by omega) hposition hfirst (by omega) (by omega) fuel
    -- More bytes are wanted, so the reader is not held back.
    have hopen : ¬ done.size + bytes.length ≤ done.size + (bytes.take storedMax).length := by omega
    rw [← hrest.data_eq] at hmore
    have hshorter : (bytes.drop storedMax).length < fuel := by
      unfold storedMax at *
      rw [List.length_drop]
      omega
    obtain ⟨ending, hending, hothers⟩ := ih (done ++ (bytes.take storedMax).toArray)
      hrest.position_eq hmore (by rw [hrest.stop_eq hopen]; omega) hshorter
    refine ⟨ending, hending, ?_⟩
    have hsize : (done ++ (bytes.take storedMax).toArray).size + (bytes.drop storedMax).length =
        done.size + bytes.length := by
      simp only [Array.size_append, List.size_toArray, List.length_drop, hlength]
      omega
    have hbytes : done ++ (bytes.take storedMax).toArray ++ (bytes.drop storedMax).toArray =
        done ++ bytes.toArray := by
      rw [Array.append_assoc, List.append_toArray (bytes.take storedMax), List.take_append_drop]
    rw [hsize, hbytes] at hothers
    rw [hblocks, if_neg (by simp), hothers]

/-! ## Pieces -/

theorem foldl_size (pieces : List (Array UInt8)) (size : Nat) :
    pieces.foldl (fun size piece => size + piece.size) size =
      size + (pieces.flatMap Array.toList).length := by
  induction pieces generalizing size with
  | nil => simp
  | cons piece more ih => simp [ih, Nat.add_assoc]

/-- Stored data, cut into any pieces, is decompressed to what was stored. -/
theorem inflate_store (bytes : List UInt8) {pieces : List (Array UInt8)}
    (h : pieces.flatMap Array.toList = store bytes) :
    ∃ ending, (ending = .complete ∨ ending = .partially) ∧
      inflate bytes.length pieces = ⟨bytes.toArray, ending⟩ := by
  have hdata : (Reader.ofPieces pieces).data = (store bytes).toArray := by
    apply Array.toList_inj.mp
    rw [← h]
    exact toList_foldl (fun _ _ => by rw [Array.toList_append]) pieces #[]
  have hstop : (Reader.ofPieces pieces).stop = (store bytes).length := by
    rw [← h, ← Nat.zero_add (pieces.flatMap Array.toList).length]
    exact foldl_size pieces 0
  have hblocks : HasBytes (store bytes).toArray 2 (storedBlocks bytes) := by
    obtain ⟨hfront, -⟩ := hasBytes_append.mp (hasBytes_self (store bytes))
    exact (hasBytes_append.mp hfront).2
  have hlength : (store bytes).length = 2 + (storedBlocks bytes).length + 4 := by
    simp [store]
    omega
  have hfirst : (Reader.ofPieces pieces).data[0]? = some 0x78 := by
    rw [hdata]
    rfl
  have hsecond : (Reader.ofPieces pieces).data[1]? = some 0x01 := by
    rw [hdata]
    rfl
  have hfuel : bytes.length < 8 * (Reader.ofPieces pieces).data.size := by
    have hstored := length_le_storedBlocks bytes
    rw [hdata, List.size_toArray, hlength]
    omega
  obtain ⟨ending, hending, hread⟩ := readBlocks_storedBlocks bytes #[]
    (r := { Reader.ofPieces pieces with position := 16 }) (k := 2) rfl
    (by rwa [hdata]) (by simp only [hstop]; omega) hfuel
  refine ⟨ending, hending, ?_⟩
  unfold inflate
  dsimp only
  rw [hfirst, hsecond]
  dsimp only
  rw [if_pos (by decide)]
  simpa using hread

end TwinScreen.Deflate
