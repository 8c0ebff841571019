import Mathlib

/-! Account addresses, the well-known ids the VM compares against, and maps over addresses. -/

namespace Hpsvm

/-- `solana_address::Address`: 32 bytes, read as one big-endian number. -/
abbrev Address := BitVec 256

instance transCmp_compare : Std.TransCmp (compare : Address → Address → Ordering) := inferInstance

/-- `HashMap<Address, _>`. Iteration follows the address order; the source leaves it open. -/
abbrev AddressMap (α : Type) := Std.ExtTreeMap Address α compare

namespace AddressMap

variable {α : Type}

@[simp] theorem getElem?_insert (entries : AddressMap α) (key other : Address) (value : α) :
    (entries.insert key value)[other]? = if key = other then some value else entries[other]? := by
  rw [Std.ExtTreeMap.getElem?_insert]
  simp

@[simp] theorem getElem?_erase (entries : AddressMap α) (key other : Address) :
    (entries.erase key)[other]? = if key = other then none else entries[other]? := by
  rw [Std.ExtTreeMap.getElem?_erase]
  simp

/-- Two maps that agree on some entries list these alike. -/
theorem filter_toList_eq {entries entries' : AddressMap α}
    {keep : Address × α → Bool}
    (same : ∀ key value, keep (key, value) = true →
      (entries[key]? = some value ↔ entries'[key]? = some value)) :
    entries.toList.filter keep = entries'.toList.filter keep := by
  have sorted : ∀ entries : AddressMap α, (entries.toList.filter keep).Pairwise
      fun first second => compare first.1 second.1 = .lt :=
    fun entries => Std.ExtTreeMap.ordered_keys_toList.filter _
  have nodup : ∀ entries : AddressMap α, (entries.toList.filter keep).Nodup := by
    intro entries
    refine (sorted entries).imp ?_
    rintro first second below rfl
    simp at below
  refine List.Perm.eq_of_pairwise ?_ (sorted entries) (sorted entries')
    ((List.perm_ext_iff_of_nodup (nodup entries) (nodup entries')).2 ?_)
  · intro first second _ _ below above
    exact absurd above (Std.OrientedCmp.not_lt_of_lt below)
  · rintro ⟨key, value⟩
    simp only [List.mem_filter, Std.ExtTreeMap.mem_toList_iff_getElem?_eq_some]
    constructor
    · rintro ⟨found, kept⟩
      exact ⟨(same key value kept).1 found, kept⟩
    · rintro ⟨found, kept⟩
      exact ⟨(same key value kept).2 found, kept⟩

end AddressMap

namespace Address

def toBytes (address : Address) : List UInt8 :=
  (List.range 32).map fun index => UInt8.ofNat (address.toNat / 256 ^ (31 - index))

def ofBytes (bytes : List UInt8) : Address :=
  BitVec.ofNat 256 (bytes.foldl (fun total byte => total * 256 + byte.toNat) 0)

-- The digits of `value` shift by one position when the width grows, so the induction
-- generalizes over the value.
private theorem foldl_digits (width value : Nat) :
    ((List.range width).map fun index => UInt8.ofNat (value / 256 ^ (width - 1 - index))).foldl
      (fun total byte => total * 256 + byte.toNat) 0 = value % 256 ^ width := by
  induction width generalizing value with
  | zero => simp [Nat.mod_one]
  | succ width ih =>
    have shifted : (List.range width).map
          (fun index => UInt8.ofNat (value / 256 ^ (width + 1 - 1 - index))) =
        (List.range width).map
          (fun index => UInt8.ofNat (value / 256 / 256 ^ (width - 1 - index))) := by
      refine List.map_congr_left fun index member => ?_
      have below := List.mem_range.1 member
      rw [Nat.div_div_eq_div_mul, ← pow_succ', show width - 1 - index + 1 = width - index by omega]
      rfl
    rw [List.range_succ, List.map_append, List.foldl_append, shifted, ih]
    have split : value % 256 ^ (width + 1) = value / 256 % 256 ^ width * 256 + value % 256 := by
      rw [pow_succ', Nat.mod_mul]
      ring
    rw [split]
    simp

theorem ofBytes_toBytes (address : Address) : ofBytes address.toBytes = address := by
  have digits := foldl_digits 32 address.toNat
  have bounded : address.toNat % 256 ^ 32 = address.toNat :=
    Nat.mod_eq_of_lt (address.isLt.trans_le (by norm_num))
  unfold ofBytes toBytes
  rw [bounded] at digits
  rw [digits]
  simp

private theorem foldl_lt (bytes : List UInt8) :
    bytes.foldl (fun total byte => total * 256 + byte.toNat) 0 < 256 ^ bytes.length := by
  induction bytes using List.reverseRecOn with
  | nil => simp
  | append_singleton bytes byte ih =>
    have small := byte.toNat_lt
    simp only [List.foldl_append, List.foldl_cons, List.foldl_nil, List.length_append,
      List.length_singleton, pow_succ]
    omega

-- The last byte is the last digit, so the induction takes bytes from the end.
private theorem digits_foldl (bytes : List UInt8) :
    (List.range bytes.length).map (fun index => UInt8.ofNat
      (bytes.foldl (fun total byte => total * 256 + byte.toNat) 0 /
        256 ^ (bytes.length - 1 - index))) = bytes := by
  induction bytes using List.reverseRecOn with
  | nil => rfl
  | append_singleton bytes byte ih =>
    have small := byte.toNat_lt
    simp only [List.foldl_append, List.foldl_cons, List.foldl_nil, List.length_append,
      List.length_singleton, List.range_succ, List.map_append, List.map_cons, List.map_nil]
    generalize bytes.foldl (fun total byte => total * 256 + byte.toNat) 0 = value at ih ⊢
    have shifted : (List.range bytes.length).map (fun index =>
          UInt8.ofNat ((value * 256 + byte.toNat) / 256 ^ (bytes.length + 1 - 1 - index))) =
        (List.range bytes.length).map fun index =>
          UInt8.ofNat (value / 256 ^ (bytes.length - 1 - index)) := by
      refine List.map_congr_left fun index member => ?_
      have below := List.mem_range.1 member
      have width : bytes.length + 1 - 1 - index = bytes.length - 1 - index + 1 := by omega
      rw [width, pow_succ', ← Nat.div_div_eq_div_mul,
        show (value * 256 + byte.toNat) / 256 = value by omega]
    rw [shifted, ih]
    simp [UInt8.ofNat_add, UInt8.ofNat_mul]

theorem toBytes_ofBytes {bytes : List UInt8} (length : bytes.length = 32) :
    (ofBytes bytes).toBytes = bytes := by
  have digits := digits_foldl bytes
  have bounded := foldl_lt bytes
  rw [length] at digits bounded
  unfold toBytes ofBytes
  rw [BitVec.toNat_ofNat, Nat.mod_eq_of_lt (bounded.trans_le (by norm_num))]
  exact digits

theorem length_toBytes (address : Address) : address.toBytes.length = 32 := by
  simp [toBytes]

end Address

/-! ### Well-known ids -/

namespace Ids

/-- `Address::default()`, the id of the system program. -/
def systemProgram : Address := 0
def nativeLoader : Address :=
  0x058784bf148ba4282fb012574888a9f153a07dadf765c0455c9a970380000000
def bpfLoader : Address :=
  0x02a8f6914e88a16e395ae128948ffa695693376818dd47435221f3c600000000
def bpfLoaderDeprecated : Address :=
  0x02a8f6914e88a16bbd2395855f6404d9b4f456b7821bb0145749428c00000000
def bpfLoaderUpgradeable : Address :=
  0x02a8f6914e88a1b0e210153ef763ae2b00c2b93d16c124d2c0537a1004800000
def loaderV4 : Address :=
  0x0512b4115151e37aad0a8bc5d3882e7b7fda4cf3d2c028c8cf83361800000000
def addressLookupTable : Address :=
  0x0277a6af97339b7ac88d1892c90446f50002309266f62e53c118244982000000
def config : Address :=
  0x03064aa3002f74dcc86e43310f0c052af8c5da27f6104019a323efa000000000
def stake : Address :=
  0x06a1d8179137542a983437bdfe2a7ab2557f535c8a78722b68a49dc000000000
def splToken : Address :=
  0x06ddf6e1d765a193d9cbe146ceeb79ac1cb485ed5f5b37913a8cf5857eff00a9
def splToken2022 : Address :=
  0x06ddf6e1ee758fde18425dbce46ccddab61afc4d83b90d27febdf928d8a18bfc
def splAssociatedTokenAccount : Address :=
  0x8c97258f4e2489f1bb3d1029148e0d830b5a1399daff1084048e7bd8dbe9f859
def splMemo1 : Address :=
  0x054a5350f85dc882d614a55672788a296ddf1eababd0a60678884932f4eef6a0
def splMemo3 : Address :=
  0x054a535a992921064d24e87160da387c7c35b5ddbc92bb81e41fa8404105448d
def incinerator : Address :=
  0x003390728d34116079bdc911bfff00dbd44d2ecdccf79ca6e10038e100000000
/-- The slot history sysvar, which the database does not manage. -/
def slotHistory : Address :=
  0x06a7d517192f0aafc875e2e184577c5069cfc84649e3eb92782f958d48000000
/-- The instructions sysvar, built for every transaction and never stored. -/
def instructions : Address :=
  0x06a7d517187bd16635dad40455fdc2c0c124c68f215675a5dbbacb5f08000000
/-- `solana_sdk_ids::sysvar`, the owner of the sysvar accounts. -/
def sysvar : Address :=
  0x06a7d5171875f729c73d93408f216120067ed88c76e08c287fc1946000000000
/-- `solana_sdk_ids::feature`, the owner of the feature accounts. -/
def feature : Address :=
  0x03c0a0cdcb06d2daefae82d16fee7acf61ec737b23481b21946a767000000000

end Ids

/-- The sysvars whose accounts the database validates and mirrors in its sysvar cache. -/
inductive Sysvar
  | clock
  | epochRewards
  | epochSchedule
  | fees
  | lastRestartSlot
  | recentBlockhashes
  | rent
  | slotHashes
  | stakeHistory
deriving DecidableEq, Repr

namespace Sysvar

def id : Sysvar → Address
  | clock => 0x06a7d51718c774c928566398691d5eb68b5eb8a39b4b6d5c73555b2100000000
  | epochRewards => 0x06a7d51718dc3fee02a558bf83ce66e144422a1c34950b27c1869b5a9c000000
  | epochSchedule => 0x06a7d51718dc3fee02d3e47f0100f8b054f7942e60591e3f508719a805000000
  | fees => 0x06a7d51718e25a8d83503c251a7af07126fd7200df6fc4ed526a9c9000000000
  | lastRestartSlot => 0x06a7d5171906dde1cd3f947dcab4c8f4f4f51bad0f9813b800d289471fc00000
  | recentBlockhashes => 0x06a7d517192c568ee08a845f73d29788cf035c3145b21ab344d8062ea9400000
  | rent => 0x06a7d517192c5c51218cc94c3d4af17f58daee089ba1fd44e3dbd98a00000000
  | slotHashes => 0x06a7d517192f0aafc6f265e3fb77cc7ada82c529d0be3b136e2d005520000000
  | stakeHistory => 0x06a7d517193584d0feed9bb3431d13206be544281b57b8566cc5375ff4000000

def all : List Sysvar :=
  [clock, epochRewards, epochSchedule, fees, lastRestartSlot, recentBlockhashes, rent,
    slotHashes, stakeHistory]

/-- The managed sysvar stored at an address, if the address is one of their ids. -/
def at? (address : Address) : Option Sysvar := all.find? fun sysvar => sysvar.id == address

theorem mem_all (sysvar : Sysvar) : sysvar ∈ all := by cases sysvar <;> decide

theorem at?_id (sysvar : Sysvar) : at? sysvar.id = some sysvar := by cases sysvar <;> decide

theorem id_of_at? {address : Address} {sysvar : Sysvar} (found : at? address = some sysvar) :
    sysvar.id = address := by
  simpa using List.find?_some found

end Sysvar

/-- `is_managed_sysvar_account`. -/
def isManagedSysvarAccount (pubkey : Address) : Bool := (Sysvar.at? pubkey).isSome

end Hpsvm
