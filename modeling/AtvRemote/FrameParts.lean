import AtvRemote.AuthRejection
import AtvRemote.FrameStreams
import AtvRemote.Links

namespace AtvRemote.FrameParts

open Programs Contracts Errors Messages SystemCalls Framing Varints FramingRules FrameStreams Links
open AuthRejection (BeginsWhole)

variable {M : Type} {codec : Codec M}

/-- The bytes that were read. -/
def taken (w : Trace ByteWire) : Bytes :=
  w.flatMap fun e => match e with
    | ⟨.read _, .ok bytes⟩ => bytes.1
    | _ => []

/-- A trace delivers what it has read, whatever comes after it. -/
theorem delivers_taken (w : Trace ByteWire) (rest : Bytes) :
    Path Delivers (taken w ++ rest) w rest := by
  induction w with
  | nil => exact .nil rest
  | cons e w ih =>
      refine .cons ?_ ih
      obtain ⟨n | bytes, x⟩ := e
      · cases x with
        | error e => rfl
        | ok bytes => exact List.append_assoc _ _ _
      · rfl

theorem readByte_fails (unread : Bytes) :
    Meets Delivers readByte unread (fun r rest => ∀ e, r = .error e → rest = unread) := by
  refine Meets.bind (P := fun r rest => ∀ e, r = .error e → rest = unread) ?_ ?_ ?_
  · rw [readExact, dif_neg Nat.one_ne_zero]
    refine meets_call.mpr fun x rest hstep => ?_
    cases x with
    | error e => exact meets_fail.mpr fun _ _ => hstep
    | ok bytes =>
        have hread : unread = bytes.1 ++ rest := hstep
        dsimp only
        split
        next he =>
          rw [he] at hread
          exact meets_fail.mpr fun _ _ => hread.symm
        next he =>
          -- one byte is all that was asked for, so there is no second read
          refine Meets.bind (P := fun r _ => ∃ a, r = .ok a) (meets_pure.mpr ⟨_, rfl⟩) ?_ ?_
          · rintro a rest' _
            exact meets_pure.mpr fun e h => by cases h
          · rintro e rest' ⟨_, ⟨⟩⟩
  · rintro bytes rest _
    exact meets_pure.mpr fun e h => by cases h
  · rintro e rest h _ _
    exact h e rfl

/-- A read that fails does not take all the bytes that it asked for. -/
theorem readExact_fails (rounds n : Nat) (h : n ≤ rounds) (bytes rest : Bytes)
    (hlen : bytes.length = n) :
    Meets Delivers (readExact rounds n h) (bytes ++ rest) (fun r rest' => ∀ e, r = .error e →
      rest.length < rest'.length) := by
  induction rounds generalizing n bytes with
  | zero => exact meets_pure.mpr fun e h => by cases h
  | succ rounds ih =>
      rw [readExact]
      split
      · exact meets_pure.mpr fun e h => by cases h
      next hn =>
        have hall : rest.length < (bytes ++ rest).length := by
          rw [List.length_append]
          omega
        refine meets_call.mpr fun x rest' hstep => ?_
        cases x with
        | error e =>
            obtain rfl : rest' = bytes ++ rest := hstep
            exact meets_fail.mpr fun _ _ => hall
        | ok portion =>
            have hread : bytes ++ rest = portion.1 ++ rest' := hstep
            dsimp only
            split
            next he =>
              rw [he, List.nil_append] at hread
              rw [hread] at hall
              exact meets_fail.mpr fun _ _ => hall
            next he =>
              have hportion : portion.1 <+: bytes :=
                List.prefix_of_prefix_length_le ⟨rest', hread.symm⟩ ⟨rest, rfl⟩ (hlen ▸ portion.2)
              obtain ⟨more, rfl⟩ := hportion
              rw [List.append_assoc] at hread
              obtain rfl := List.append_cancel_left hread
              have hmore : more.length = n - portion.1.length := by
                rw [List.length_append] at hlen
                omega
              refine (ih _ _ more hmore).bind ?_ ?_
              · rintro a rest'' _
                exact meets_pure.mpr fun e h => by cases h
              · rintro e rest'' hlonger _ _
                exact hlonger e rfl

theorem readLen_fails (rounds shift : Nat) (len : UInt64) (p rest : Bytes)
    (hrounds : rounds + shift = 5)
    (hp : Terminated p) (hplen : p.length ≤ rounds) :
    Meets Delivers (readLen rounds shift len) (p ++ rest)
      (fun r rest' => ∀ e, r = .error e → rest.length < rest'.length) := by
  induction rounds generalizing shift len p with
  | zero => exact meets_pure.mpr fun e h => by cases h
  | succ rounds ih =>
      cases p with
      | nil => exact hp.elim
      | cons b p =>
          intro t r hrun rest' hpath
          rcases run_bind.mp hrun with ⟨b', u, v, rfl, hu, hv⟩ | ⟨e, hu, rfl⟩
          · obtain ⟨mid, hmid, hpath⟩ := path_append.mp hpath
            have hread := readByte_sound _ u _ hu mid hmid b' rfl
            obtain ⟨rfl, rfl⟩ := List.cons.inj hread
            rw [terminated_cons] at hp
            dsimp only at hv
            split at hv
            · obtain ⟨_, rfl⟩ := run_ret.mp hv
              exact fun e h => by cases h
            next hmore =>
              rw [if_neg (fun h => hmore ((high_bit_clear b).mpr h))] at hp
              have hpos := List.length_pos_iff.mpr hp.ne_nil
              rw [List.length_cons] at hplen
              split at hv
              · omega
              · exact ih (shift + 1) _ p (by omega) hp (by omega) v r hv rest' hpath
          · obtain rfl := readByte_fails _ t _ hu rest' hpath e rfl
            intro _ _
            rw [List.length_append, List.length_cons]
            omega

theorem readMessage_fails {f : Bytes} {m : M} (h : IsFrame codec f m) (rest : Bytes) :
    Meets Delivers (readMessage codec) (f ++ rest) (fun r rest' => ∀ e, r = .error e →
      rest.length < rest'.length) := by
  obtain ⟨p, body, rfl, hp, hplen, hfits, hbody, hm⟩ := h.parts
  intro t r hrun rest' hpath
  rw [List.append_assoc] at hpath
  rcases run_bind.mp hrun with ⟨len, u, v, rfl, hu, hv⟩ | ⟨e, hu, rfl⟩
  · obtain ⟨mid, hmid, hpath⟩ := path_append.mp hpath
    obtain ⟨p', hread, hp', _, hvalue⟩ :=
      readLen_sound 5 0 0 _ rfl (Nat.zero_le 4) (by decide) u _ hu mid hmid len rfl
    obtain ⟨rfl, rfl⟩ := hp.unique hp' hread
    have hvalue : len.toNat = value p := by simpa using hvalue
    have hnot : ¬len > maxFrame := by
      rw [gt_iff_lt, UInt64.not_lt, UInt64.le_iff_toNat_le, hvalue]
      exact hfits
    rw [if_neg hnot] at hv
    have hlen : body.length = len.toNat := hbody.trans hvalue.symm
    rcases run_bind.mp hv with ⟨⟨bytes, hbytes⟩, w, z, rfl, hw, hz⟩ | ⟨e, hw, rfl⟩
    · obtain ⟨mid', hmid', _⟩ := path_append.mp hpath
      have hread := readExact_sound _ _ _ _ w _ hw mid' hmid' _ rfl
      obtain ⟨rfl, _⟩ := List.append_inj hread (hlen.trans hbytes.symm)
      dsimp only at hz
      rw [hm] at hz
      obtain ⟨_, rfl⟩ := run_ret.mp hz
      exact fun e h => by cases h
    · exact fun _ _ => readExact_fails _ _ _ body rest hlen v _ hw rest' hpath e rfl
  · have hlonger := readLen_fails 5 0 0 p (body ++ rest) rfl hp hplen t _ hu rest' hpath e rfl
    rw [List.length_append] at hlonger
    intro _ _
    omega

/-- The bytes of a message are one whole frame. -/
theorem taken_frame {w : Trace ByteWire} {m : M} (h : Run (readMessage codec) w (.ok m)) :
    IsFrame codec (taken w) m := by
  have hpath := delivers_taken w []
  rw [List.append_nil] at hpath
  obtain ⟨f, hf, hframe⟩ := readMessage_sound (taken w) w _ h [] hpath m rfl
  rw [hf, List.append_nil]
  exact hframe

/-- A read of a message that fails does not get to the end of one. -/
theorem taken_part {w : Trace ByteWire} {e : IoError} (h : Run (readMessage codec) w (.error e)) :
    ¬BeginsWhole codec (taken w) := by
  rintro ⟨f, after, m, htaken, hf⟩
  have hpath := delivers_taken w []
  rw [List.append_nil, htaken] at hpath
  exact absurd (readMessage_fails hf after w _ h [] hpath e rfl) (Nat.not_lt_zero _)

theorem written_reads {w : Trace ByteWire} (h : ∀ e ∈ w, IsRead e) : written w = [] := by
  refine List.flatMap_eq_nil_iff.mpr fun e he => ?_
  obtain ⟨n | bytes, x⟩ := e
  · rfl
  · exact (h _ he).elim

end AtvRemote.FrameParts
