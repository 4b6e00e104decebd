import AtvRemote.Ascii
import AtvRemote.BigEndian
import AtvRemote.KeyCodes
import AtvRemote.Texts
import Mathlib.Data.List.Nodup

namespace AtvRemote.KeyNames

open Ascii BigEndian Messages

/-- `KEYCODE_`, then neither small letters nor anything outside ASCII. -/
def WellFormed (bytes : Bytes) : Bool :=
  bytes.take 8 == [75, 69, 89, 67, 79, 68, 69, 95] && bytes.all fun b => b < 97 ||
    (122 < b && b < 128)

theorem bytes_of_wellFormed {s : String} (h : WellFormed (utf8 s) = true) :
    ∀ b ∈ utf8 s, b.toNat < 97 ∨ 122 < b.toNat ∧ b.toNat < 128 := by
  intro b hb
  simpa [UInt8.lt_iff_toNat_lt] using List.all_eq_true.mp (Bool.and_eq_true_iff.mp h).2 b hb

theorem ascii_of_wellFormed {s : String} (h : WellFormed (utf8 s) = true) :
    ∀ b ∈ utf8 s, b.toNat < 128 := by
  intro b hb
  have hb := bytes_of_wellFormed h b hb
  omega

theorem letters_of_wellFormed {s : String} (h : WellFormed (utf8 s) = true) :
    (∃ rest, s.toList = "KEYCODE_".toList ++ rest) ∧ ∀ c ∈ s.toList, c.toUpper = c := by
  have hstart : (utf8 s).take 8 = [75, 69, 89, 67, 79, 68, 69, 95] :=
    beq_iff_eq.mp (Bool.and_eq_true_iff.mp h).1
  rw [toList_ascii (ascii_of_wellFormed h)]
  constructor
  · refine ⟨((utf8 s).drop 8).map charOf, ?_⟩
    have hletters : "KEYCODE_".toList = ((utf8 s).take 8).map charOf := by
      rw [hstart]
      decide
    rw [hletters, ← List.map_append, List.take_append_drop]
  · intro c hc
    obtain ⟨b, hb, rfl⟩ := List.mem_map.mp hc
    exact toUpper_charOf (bytes_of_wellFormed h b hb)

theorem names_wellFormed : RemoteKeyCode.names.all (fun name => WellFormed (utf8 name)) = true := by
  decide +kernel

theorem asStrName_wellFormed (k : RemoteKeyCode) : WellFormed (utf8 k.asStrName) = true :=
  List.all_eq_true.mp names_wellFormed k.asStrName (List.get_mem _ _)

theorem asStrName_letters (k : RemoteKeyCode) :
    (∃ rest, k.asStrName.toList = "KEYCODE_".toList ++ rest) ∧ ∀ c ∈ k.asStrName.toList,
    c.toUpper = c :=
  letters_of_wellFormed (asStrName_wellFormed k)

/-- The names differ as numbers already, which are compared faster than texts. -/
def distinct : List Nat → Bool
  | [] => true
  | n :: ns => ns.all (fun m => !Nat.beq n m) && distinct ns

theorem nodup_of_distinct {ns : List Nat} (h : distinct ns = true) : ns.Nodup := by
  induction ns with
  | nil => exact List.nodup_nil
  | cons n ns ih =>
      obtain ⟨hn, hns⟩ := Bool.and_eq_true_iff.mp h
      refine List.nodup_cons.mpr ⟨?_, ih hns⟩
      intro hmem
      have hne := List.all_eq_true.mp hn n hmem
      rw [Nat.beq_refl] at hne
      cases hne

theorem names_distinct : distinct (RemoteKeyCode.names.map fun name => bigEndian (utf8 name)) =
      true := by decide +kernel

theorem names_nodup : RemoteKeyCode.names.Nodup := (nodup_of_distinct names_distinct).of_map

theorem fromStrName_asStrName (k : RemoteKeyCode) :
    RemoteKeyCode.fromStrName k.asStrName = some k := by
  apply List.finIdxOf?_eq_some_iff.mpr
  refine ⟨rfl, ?_⟩
  intro j hj heq
  have hij : j = k := Fin.ext ((List.getElem_inj names_nodup).mp heq)
  omega

theorem names_length : RemoteKeyCode.names.length = 305 := by decide +kernel

theorem toInt_toI32 (k : RemoteKeyCode) : k.toI32.toInt = k := by
  apply Int32.toInt_ofNat_of_lt
  have hk : k.val < 305 := names_length ▸ k.isLt
  omega

theorem tryFrom_toI32 (k : RemoteKeyCode) : RemoteKeyCode.tryFrom k.toI32 = some k := by
  have hrange : 0 ≤ k.toI32.toInt ∧ k.toI32.toInt.toNat < RemoteKeyCode.names.length := by
    rw [toInt_toI32]
    exact ⟨Int.natCast_nonneg _, k.isLt⟩
  rw [RemoteKeyCode.tryFrom, dif_pos hrange]
  congr 1
  apply Fin.ext
  change k.toI32.toInt.toNat = k
  rw [toInt_toI32]
  rfl

theorem toI32_tryFrom {n : Int32} {k : RemoteKeyCode} (h : RemoteKeyCode.tryFrom n = some k) :
    k.toI32 = n := by
  unfold RemoteKeyCode.tryFrom at h
  split at h
  next hrange =>
    obtain rfl := Option.some.inj h
    apply Int32.toInt_inj.mp
    rw [toInt_toI32]
    exact Int.toNat_of_nonneg hrange.1
  next => cases h

theorem asStrName_fromStrName {name : String} {k : RemoteKeyCode}
    (h : RemoteKeyCode.fromStrName name = some k) :
    k.asStrName = name := (List.finIdxOf?_eq_some_iff.mp h).1

example : (RemoteKeyCode.tryFrom RemoteKeyCode.keycodePower).map RemoteKeyCode.asStrName =
      some "KEYCODE_POWER" := by
  decide +kernel

end AtvRemote.KeyNames
