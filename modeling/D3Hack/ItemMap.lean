import D3Hack.Fnv
import Mathlib.Data.List.Basic

/-!
# Item lookup

`getItemPtr` looks an item up in the game's hash map. The macro `HASHMAP` hashes the four bytes
of the id as FNV-1a does, but narrows the offset basis to its low byte with the first byte of
the id, so that its hash differs from FNV-1a by the same amount for every id
(`hash_eq_hashMap_add`).

That amount is an odd multiple of 256. With a mask of at most eight ones the two choose the same
bucket for every id, with a longer mask for none, and `finds_iff` says when a lookup is right.
-/

namespace D3Hack

/-! ## The map -/

/-- `GBID`. -/
abbrev Gbid := BitVec 32

/-- `BYTEn`, promoted. -/
def byteN (x : BitVec 32) (n : ℕ) : BitVec 8 := (x >>> (8 * n)).setWidth 8

/-- The bytes of an id, the lowest first. -/
def gbidBytes (id : Gbid) : List (BitVec 8) := [byteN id 0, byteN id 1, byteN id 2, byteN id 3]

/-- `HASHMAP`; a byte is promoted to `int`, and products wrap around. -/
def hashMap (m : BitVec 32) (id : Gbid) : BitVec 32 :=
  m &&& (16777619 * ((16777619 * ((16777619 * ((16777619 *
    ((id ^^^ 0x811C9DC5).setWidth 8).setWidth 32) ^^^ (byteN id 1).setWidth 32)) ^^^
      (byteN id 2).setWidth 32)) ^^^ (byteN id 3).setWidth 32))

variable {Item : Type}

/-- An item map: a mask of ones, with a bucket for each of its values. An association is a key
with the pointer to its item, and lies in the bucket that FNV-1a gives its key. -/
structure ItemMap (Item : Type) where
  nHashMask : BitVec 32
  hashTable : List (List (Gbid × Option Item))
  ones : ℕ
  ones_le : ones ≤ 31
  mask : nHashMask.toNat = 2 ^ ones - 1
  length : hashTable.length = 2 ^ ones
  bucketed : ∀ i chain, hashTable[i]? = some chain → ∀ assoc ∈ chain,
    (nHashMask &&& Fnv.hash (gbidBytes assoc.1)).toNat = i

/-- The loop of `GetItemPtr` over a chain. -/
def walkChain (gbid : Gbid) : List (Gbid × Option Item) → Option Item
  | [] => none
  | assoc :: next => if assoc.1 ≠ gbid then walkChain gbid next else assoc.2

/-- The place of the bucket that `GetItemPtr` reads; the mask and the hash are an `int`. -/
def bucketIndex (map : ItemMap Item) (gbid : Gbid) : ℤ := (hashMap map.nHashMask gbid).toInt

/-- `GetItemPtr`. -/
def getItemPtr (globals : Option (ItemMap Item)) (gbidItem : Gbid) : Option Item :=
  match globals with
  | none => none
  | some map => walkChain gbidItem (map.hashTable.getD (bucketIndex map gbidItem).toNat [])

/-! ## The hash -/

/-- The hash of the macro is that of FNV-1a from the low byte of the offset basis. -/
theorem hashMap_eq (m : BitVec 32) (id : Gbid) :
    hashMap m id = m &&& Fnv.hashFrom 0xC5#32 (gbidBytes id) := by
  have hfirst : ((id ^^^ 0x811C9DC5).setWidth 8).setWidth 32 =
      0xC5#32 ^^^ (byteN id 0).setWidth 32 := by
    rw [BitVec.setWidth_xor, BitVec.setWidth_xor, BitVec.xor_comm, byteN, Nat.mul_zero,
      BitVec.ushiftRight_zero]
    rfl
  rw [hashMap, hfirst]
  simp only [gbidBytes, Fnv.hashFrom, List.foldl_cons, List.foldl_nil, Fnv.step, Fnv.prime,
    BitVec.mul_comm]

/-- The hash of FNV-1a exceeds that of the macro by the same amount for every id. -/
theorem hash_eq_add (id : Gbid) : Fnv.hash (gbidBytes id) =
    Fnv.hashFrom 0xC5#32 (gbidBytes id) + 2575920384#32 := by
  have hbasis : Fnv.offsetBasis = 0xC5#32 + 0x811C9D00#32 := by decide
  rw [Fnv.hash, hbasis, Fnv.hashFrom_add (by decide)]
  simp only [gbidBytes, List.foldl_cons, List.foldl_nil]
  exact congrArg _ (by decide)

/-- The amount is an odd multiple of 256: the two hashes agree in eight low bits, and never in
nine. -/
theorem hash_mod_eq_iff (id : Gbid) {k : ℕ} (hk : k ≤ 31) :
    (Fnv.hash (gbidBytes id)).toNat % 2 ^ k =
        (Fnv.hashFrom 0xC5#32 (gbidBytes id)).toNat % 2 ^ k ↔ k ≤ 8 := by
  rw [hash_eq_add, BitVec.toNat_add, BitVec.toNat_ofNat]
  set x := (Fnv.hashFrom 0xC5#32 (gbidBytes id)).toNat
  have hmod : ∀ j ≤ 32, ∀ y : ℕ, y % 2 ^ 32 % 2 ^ j = y % 2 ^ j := fun j hj y =>
    Nat.mod_mod_of_dvd y (Nat.pow_dvd_pow 2 hj)
  rw [hmod k (by omega)]
  refine ⟨fun h => ?_, fun h => ?_⟩
  · by_contra hlong
    have hdvd : 2 ^ 9 ∣ 2 ^ k := Nat.pow_dvd_pow 2 (by omega)
    have hnine := congrArg (· % 2 ^ 9) h
    simp only [Nat.mod_mod_of_dvd _ hdvd] at hnine
    omega
  · have hdvd : 2 ^ k ∣ 2 ^ 8 := Nat.pow_dvd_pow 2 h
    have height : (x + 2575920384 % 2 ^ 32) % 2 ^ 8 = x % 2 ^ 8 := by omega
    rw [← Nat.mod_mod_of_dvd _ hdvd, height, Nat.mod_mod_of_dvd _ hdvd]

/-! ## The lookup -/

variable (map : ItemMap Item) (gbid : Gbid)

/-- The bucket of an id by FNV-1a. -/
def fnvBucket : ℕ := (map.nHashMask &&& Fnv.hash (gbidBytes gbid)).toNat

/-- The item stored for an id: that of the first association with the key, if there is one. -/
def stored : Option Item :=
  (map.hashTable.flatten.find? fun assoc => assoc.1 = gbid).bind Prod.snd

theorem walkChain_eq (chain : List (Gbid × Option Item)) :
    walkChain gbid chain = (chain.find? fun assoc => assoc.1 = gbid).bind Prod.snd := by
  induction chain with
  | nil => rfl
  | cons assoc next ih =>
    rw [walkChain]
    by_cases hkey : assoc.1 = gbid <;> simp [hkey, ih]

/-- The bucket read is one of the table. -/
theorem bucketIndex_spec : bucketIndex map gbid = (hashMap map.nHashMask gbid).toNat ∧
    (hashMap map.nHashMask gbid).toNat < map.hashTable.length := by
  have hlt : (hashMap map.nHashMask gbid).toNat < 2 ^ map.ones := by
    rw [hashMap_eq, Fnv.toNat_and_mask map.mask]
    exact Nat.mod_lt _ (Nat.two_pow_pos _)
  have hle : 2 ^ map.ones ≤ 2 ^ 31 := Nat.pow_le_pow_right (by omega) map.ones_le
  exact ⟨BitVec.toInt_eq_toNat_of_lt (by omega), map.length.symm ▸ hlt⟩

/-- The key of an association in another bucket is another. -/
theorem ne_of_mem_bucket {i : ℕ} (hi : i ≠ fnvBucket map gbid) {chain : List (Gbid × Option Item)}
    (hchain : map.hashTable[i]? = some chain) : ∀ assoc ∈ chain, assoc.1 ≠ gbid := by
  rintro assoc hassoc rfl
  exact hi (map.bucketed i chain hchain assoc hassoc).symm

theorem walkChain_eq_none {chain : List (Gbid × Option Item)}
    (h : ∀ assoc ∈ chain, assoc.1 ≠ gbid) : walkChain gbid chain = none := by
  rw [walkChain_eq, List.find?_eq_none.2 (by simpa using h)]
  rfl

/-- Where only one list of several has a matching element, the first one is found there. -/
theorem find?_flatten_of_only {α : Type} {p : α → Bool} {ls : List (List α)} {i : ℕ}
    (h : ∀ j l, j ≠ i → ls[j]? = some l → ∀ a ∈ l, p a = false) :
    ls.flatten.find? p = (ls.getD i []).find? p := by
  induction ls generalizing i with
  | nil => rfl
  | cons l ls ih =>
    rw [List.flatten_cons, List.find?_append]
    cases i with
    | zero =>
      have hrest : ls.flatten.find? p = none := by
        rw [List.find?_eq_none]
        intro a ha
        obtain ⟨l', hl', ha'⟩ := List.mem_flatten.1 ha
        obtain ⟨j, hj⟩ := List.mem_iff_getElem?.1 hl'
        simp [h (j + 1) l' (Nat.succ_ne_zero j) hj a ha']
      rw [hrest, Option.or_none]
      rfl
    | succ i =>
      have hfirst : l.find? p = none := by
        rw [List.find?_eq_none]
        intro a ha
        simp [h 0 l (Nat.succ_ne_zero i).symm rfl a ha]
      rw [hfirst, Option.none_or, List.getD_cons_succ]
      exact ih fun j l' hj hl' => h (j + 1) l' (by omega) hl'

/-- The stored item is found in the bucket of FNV-1a. -/
theorem walkChain_fnvBucket :
    walkChain gbid (map.hashTable.getD (fnvBucket map gbid) []) = stored map gbid := by
  rw [walkChain_eq, stored, find?_flatten_of_only]
  intro j chain hj hchain assoc hassoc
  simpa using ne_of_mem_bucket map gbid hj hchain assoc hassoc

/-- A lookup gives the stored item exactly if the mask has at most eight ones, or no item is
stored for the id. -/
theorem getItemPtr_eq_iff :
    getItemPtr (some map) gbid = stored map gbid ↔ map.ones ≤ 8 ∨ stored map gbid = none := by
  obtain ⟨hindex, hlt⟩ := bucketIndex_spec map gbid
  have hbuckets := hash_mod_eq_iff gbid map.ones_le
  rw [← Fnv.toNat_and_mask map.mask, ← Fnv.toNat_and_mask map.mask, ← hashMap_eq] at hbuckets
  rw [getItemPtr, hindex, Int.toNat_natCast, ← hbuckets]
  by_cases hsame : (hashMap map.nHashMask gbid).toNat = fnvBucket map gbid
  · rw [hsame, walkChain_fnvBucket]
    exact iff_of_true rfl (Or.inl rfl)
  · have hmiss : walkChain gbid (map.hashTable.getD (hashMap map.nHashMask gbid).toNat []) =
        none := by
      refine walkChain_eq_none gbid (ne_of_mem_bucket map gbid hsame ?_)
      rw [List.getD_eq_getElem?_getD, List.getElem?_eq_getElem hlt]
      rfl
    rw [hmiss, or_iff_right fun h => hsame h.symm, eq_comm]

/-- The lookup reads a bucket of the table, and gives the item stored for the id. -/
def Finds : Prop :=
  0 ≤ bucketIndex map gbid ∧ bucketIndex map gbid < map.hashTable.length ∧
    getItemPtr (some map) gbid = stored map gbid

/-- **A lookup finds the item of an id if and only if the mask is at most 255 or no item is
stored for the id.** -/
theorem finds_iff : Finds map gbid ↔ map.nHashMask.toNat ≤ 255 ∨ stored map gbid = none := by
  obtain ⟨hindex, hlt⟩ := bucketIndex_spec map gbid
  have hmask : map.nHashMask.toNat ≤ 255 ↔ map.ones ≤ 8 := by
    have hpow : 2 ^ map.ones ≤ 2 ^ 8 ↔ map.ones ≤ 8 := Nat.pow_le_pow_iff_right (by omega)
    rw [map.mask]
    omega
  rw [hmask, ← getItemPtr_eq_iff, Finds, hindex]
  exact ⟨fun h => h.2.2, fun h => ⟨Int.natCast_nonneg _, Int.ofNat_lt.2 hlt, h⟩⟩

/-- A map of nine ones with one item. -/
def oneItemMap (gbid : Gbid) (item : Item) : ItemMap Item where
  nHashMask := 511
  hashTable := (List.replicate 512 []).set (511#32 &&& Fnv.hash (gbidBytes gbid)).toNat
    [(gbid, some item)]
  ones := 9
  ones_le := by omega
  mask := rfl
  length := by rw [List.length_set, List.length_replicate]; rfl
  bucketed := by
    intro i chain hchain assoc hassoc
    rw [List.getElem?_set] at hchain
    split_ifs at hchain with hi hlt
    · obtain rfl := Option.some.inj hchain
      obtain rfl := List.mem_singleton.1 hassoc
      exact hi
    · obtain rfl := List.eq_of_mem_replicate (List.mem_of_getElem? hchain)
      cases hassoc

theorem not_finds_oneItemMap : ¬Finds (oneItemMap 0 ()) 0 := by
  rintro ⟨-, -, hfound⟩
  rw [getItemPtr_eq_iff] at hfound
  rcases hfound with hones | hnone
  · exact absurd hones (by decide)
  · rw [← walkChain_fnvBucket] at hnone
    exact absurd hnone (by decide)

end D3Hack
