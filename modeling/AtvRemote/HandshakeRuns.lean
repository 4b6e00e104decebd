import AtvRemote.Handshake
import Mathlib.Data.List.Induction
import Mathlib.Data.List.Perm.Basic

namespace AtvRemote.HandshakeRuns

open Errors Messages Handshake

/-- What happens to a handshake: a message is handled, or the driver forgets
the power before it waits for a confirmation. -/
inductive Input
  | message (m : RemoteMessage)
  | resetPower

def advance (hs : SessionHandshake) : Input → SessionHandshake
  | .message m => (hs.handle m).2
  | .resetPower => { hs with power := none }

/-- The state after some inputs; the results of `handle` are ignored. -/
def session (inputs : List Input) : SessionHandshake := inputs.foldl advance .new

theorem session_append (inputs : List Input) (i : Input) :
    session (inputs ++ [i]) = advance (session inputs) i := List.foldl_append

def Input.code1 : Input → Option Int32
  | .message m => match kind m with
      | .configure code1 => if code1 = 0 then none else some code1
      | _ => none
  | .resetPower => none

def code1s (inputs : List Input) : List Int32 := inputs.filterMap Input.code1

def Input.isReset : Input → Bool
  | .resetPower => true
  | .message _ => false

def Input.start : Input → Option Bool
  | .message m => hear none (kind m)
  | .resetPower => none

def lastStart (inputs : List Input) : Option Bool :=
  (inputs.reverse.takeWhile fun i => !i.isReset).findSome? Input.start

theorem advance_activeFeatures (hs : SessionHandshake) (i : Input) :
    (advance hs i).activeFeatures = i.code1.toList.foldl (· &&& ·) hs.activeFeatures := by
  cases i with
  | resetPower => rfl
  | message m =>
      simp only [advance, handle_eq, Input.code1]
      cases kind m with
      | configure code1 => by_cases h : code1 = 0 <;> simp [narrow, h]
      | _ => rfl

theorem advance_power (hs : SessionHandshake) (i : Input) :
    (advance hs i).power = if i.isReset then none else i.start.or hs.power := by
  cases i with
  | resetPower => rfl
  | message m =>
      simp only [advance, handle_eq, Input.start, Input.isReset]
      cases kind m <;> simp [hear]

theorem foldl_activeFeatures (inputs : List Input) (hs : SessionHandshake) :
    (inputs.foldl advance hs).activeFeatures = (code1s inputs).foldl
    (· &&& ·) hs.activeFeatures := by
  induction inputs generalizing hs with
  | nil => rfl
  | cons i inputs ih =>
      rw [List.foldl_cons, ih, advance_activeFeatures]
      unfold code1s
      cases h : i.code1 <;> simp [h]

theorem power_eq (inputs : List Input) : (session inputs).power = lastStart inputs := by
  induction inputs using List.reverseRecOn with
  | nil => rfl
  | append_singleton inputs i ih =>
      rw [session_append, advance_power, ih]
      unfold lastStart
      rw [List.reverse_append, List.reverse_singleton, List.singleton_append, List.takeWhile_cons]
      cases h : i.isReset with
      | true => rfl
      | false =>
          simp only [Bool.not_false, if_true, List.findSome?_cons, Bool.false_eq_true, if_false]
          cases i.start <;> rfl

instance rightCommutative_and : RightCommutative (fun a b : Int32 => a &&& b) :=
  ⟨fun a b c => by rw [Int32.and_assoc, Int32.and_comm b c, ← Int32.and_assoc]⟩

theorem foldl_and_absorbs (l : List Int32) (a : Int32) :
    l.foldl (· &&& ·) a &&& a = l.foldl (· &&& ·) a := by
  induction l generalizing a with
  | nil => exact Int32.and_self
  | cons b l ih =>
      have hab : a &&& b &&& a = a &&& b := by
        rw [Int32.and_comm a b, Int32.and_assoc, Int32.and_self]
      rw [List.foldl_cons, ← ih (a &&& b), Int32.and_assoc, hab]

/-- The features and the power that a handshake has negotiated after some
inputs, and what it advertises next. -/
structure Negotiated (inputs : List Input) : Prop where
  masked : (session inputs).activeFeatures = (code1s inputs).foldl (· &&& ·) features
  subset : (session inputs).activeFeatures &&& features = (session inputs).activeFeatures
  narrowing : ∀ later, (session (inputs ++ later)).activeFeatures &&&
    (session inputs).activeFeatures =
    (session (inputs ++ later)).activeFeatures
  unordered : ∀ inputs', (code1s inputs).Perm (code1s inputs') →
    (session inputs).activeFeatures = (session inputs').activeFeatures
  configure : ∀ m code1, kind m = .configure code1 → ((session inputs).handle m).1 = .ok (some
    { remoteConfigure := some ⟨(session (inputs ++ [.message m])).activeFeatures,
      some deviceInfo⟩ })
  setActive : ∀ m, kind m = .setActive → ((session inputs).handle m).1 = .ok (some
    { remoteSetActive := some ⟨(session (inputs ++ [.message m])).activeFeatures⟩ })
  unchanged : ∀ m, (∀ code1, kind m = .configure code1 → code1 = 0) →
    (session (inputs ++ [.message m])).activeFeatures = (session inputs).activeFeatures
  power : (session inputs).power = lastStart inputs

theorem session_negotiated (inputs : List Input) : Negotiated inputs where
  masked := foldl_activeFeatures inputs .new
  subset := by
    have hmasked : (session inputs).activeFeatures = (code1s inputs).foldl (· &&& ·) features :=
      foldl_activeFeatures inputs .new
    rw [hmasked, foldl_and_absorbs]
  narrowing := by
    intro later
    have hlater : (session (inputs ++ later)).activeFeatures =
        (code1s later).foldl (· &&& ·) (session inputs).activeFeatures := by
      unfold session
      rw [List.foldl_append, foldl_activeFeatures]
    rw [hlater, foldl_and_absorbs]
  unordered := by
    intro inputs' hperm
    unfold session
    rw [foldl_activeFeatures, foldl_activeFeatures]
    exact hperm.foldl_eq _
  configure := by
    intro m code1 hm
    rw [session_append]
    simp only [advance, handle_eq, hm, reply, if_neg
      (Kind.noConfusion : Kind.configure code1 ≠ .error)]
  setActive := by
    intro m hm
    rw [session_append]
    simp only [advance, handle_eq, hm, reply, if_neg (Kind.noConfusion : Kind.setActive ≠ .error)]
  unchanged := by
    intro m hm
    rw [session_append, advance_activeFeatures]
    have hnone : (Input.message m).code1 = none := by
      rw [Input.code1]
      cases hk : kind m with
      | configure code1 =>
          obtain rfl := hm code1 hk
          simp
      | _ => simp
    rw [hnone]
    rfl
  power := power_eq inputs

end AtvRemote.HandshakeRuns
