import AtvRemote.Framing
import AtvRemote.Varints
import AtvRemote.Contracts

namespace AtvRemote.FramingRules

open Programs Contracts Errors Messages SystemCalls Framing Varints

variable {M : Type} {codec : Codec M}

/-- The bytes of a stream in order, in any portions; a read may also fail or
pretend the end at any time. -/
def Delivers : Bytes → Event ByteWire → Bytes → Prop
  | unread, ⟨.read _, .ok bytes⟩, rest => unread = bytes.1 ++ rest
  | unread, _, rest => rest = unread

/-- A stream on which nothing goes wrong before it is read to its end. -/
def Flows (unread : Bytes) (e : Event ByteWire) (rest : Bytes) : Prop :=
  Delivers unread e rest ∧ match e with
    | ⟨.read n, .ok bytes⟩ => bytes.1 = [] → unread = [] ∨ n = 0
    | ⟨.read _, .error _⟩ => unread = []
    | ⟨.writeAll _, answer⟩ => answer = .ok ()

theorem readExact_sound (rounds n : Nat) (h : n ≤ rounds) (unread : Bytes) :
    Meets Delivers (readExact rounds n h) unread
      (fun r rest => ∀ bytes, r = .ok bytes → unread = bytes.1 ++ rest) := by
  induction rounds generalizing n unread with
  | zero =>
      refine meets_pure.mpr ?_
      rintro _ ⟨rfl⟩
      rfl
  | succ rounds ih =>
      rw [readExact]
      split
      · refine meets_pure.mpr ?_
        rintro _ ⟨rfl⟩
        rfl
      · refine meets_call.mpr fun answer rest hstep => ?_
        cases answer with
        | error e => exact meets_fail.mpr nofun
        | ok bytes =>
            have hread : unread = bytes.1 ++ rest := hstep
            dsimp only
            split
            · exact meets_fail.mpr nofun
            · refine (ih _ _ rest).bind ?_ (fun e rest' _ => nofun)
              intro more rest' hmore
              refine meets_pure.mpr ?_
              rintro _ ⟨rfl⟩
              rw [hread, hmore more rfl, List.append_assoc]

theorem readExact_complete (rounds : Nat) {n : Nat} (h : n ≤ rounds) (bytes rest : Bytes)
    (hlen : bytes.length = n) :
    Meets Flows (readExact rounds n h) (bytes ++ rest)
      (fun r rest' => r = .ok ⟨bytes, hlen⟩ ∧ rest' = rest) := by
  induction rounds generalizing n bytes with
  | zero =>
      obtain rfl : bytes = [] := List.eq_nil_of_length_eq_zero (by omega)
      exact meets_pure.mpr ⟨rfl, rfl⟩
  | succ rounds ih =>
      rw [readExact]
      split
      next hn =>
        obtain rfl : bytes = [] := List.eq_nil_of_length_eq_zero (by omega)
        exact meets_pure.mpr ⟨rfl, rfl⟩
      next hn =>
        have hne : bytes ++ rest ≠ [] := by
          intro hnil
          rw [List.append_eq_nil_iff] at hnil
          rw [hnil.1] at hlen
          exact hn hlen.symm
        refine meets_call.mpr fun answer rest' hstep => ?_
        obtain ⟨hstep, hflow⟩ := hstep
        cases answer with
        | error e => exact absurd hflow hne
        | ok portion =>
            have hread : bytes ++ rest = portion.1 ++ rest' := hstep
            dsimp only
            rw [dif_neg (fun he => (hflow he).elim hne hn)]
            have hportion : portion.1 <+: bytes :=
              List.prefix_of_prefix_length_le ⟨rest', hread.symm⟩ ⟨rest, rfl⟩ (hlen ▸ portion.2)
            obtain ⟨more, rfl⟩ := hportion
            rw [List.append_assoc] at hread
            obtain rfl := List.append_cancel_left hread
            have hmore : more.length = n - portion.1.length := by
              have hsum := hlen
              rw [List.length_append] at hsum
              omega
            refine (ih _ more hmore).bind ?_ ?_
            · rintro _ rest'' ⟨⟨rfl⟩, rfl⟩
              exact meets_pure.mpr ⟨rfl, rfl⟩
            · rintro e rest'' ⟨⟨⟩, _⟩

theorem readExact_short (rounds n : Nat) (h : n ≤ rounds) (unread : Bytes)
    (hshort : unread.length < n) :
    Meets Flows (readExact rounds n h) unread (fun r _ => ∃ e, r = .error e) := by
  induction rounds generalizing n unread with
  | zero => omega
  | succ rounds ih =>
      rw [readExact]
      split
      · omega
      · refine meets_call.mpr fun answer rest hstep => ?_
        cases answer with
        | error e => exact meets_fail.mpr ⟨e, rfl⟩
        | ok portion =>
            have hread : unread = portion.1 ++ rest := hstep.1
            have hlen := congrArg List.length hread
            rw [List.length_append] at hlen
            dsimp only
            split
            next he => exact meets_fail.mpr ⟨_, rfl⟩
            next he =>
              refine (ih _ _ rest (by omega)).bind ?_ ?_
              · rintro _ _ ⟨e, ⟨⟩⟩
              · rintro e rest' _
                exact ⟨e, rfl⟩

theorem readByte_sound (unread : Bytes) : Meets Delivers readByte unread
    (fun r rest => ∀ b, r = .ok b → unread = b :: rest) := by
  refine (readExact_sound 1 1 (Nat.le_refl 1) unread).bind ?_ (fun e rest _ => nofun)
  rintro ⟨bytes, hlen⟩ rest hread
  obtain ⟨b, rfl⟩ := List.length_eq_one_iff.mp hlen
  refine meets_pure.mpr ?_
  rintro _ ⟨rfl⟩
  exact hread _ rfl

theorem readByte_complete (b : UInt8) (rest : Bytes) :
    Meets Flows readByte (b :: rest) (fun r rest' => r = .ok b ∧ rest' = rest) := by
  refine (readExact_complete 1 (Nat.le_refl 1) [b] rest rfl).bind ?_ ?_
  · rintro _ rest' ⟨⟨rfl⟩, rfl⟩
    exact meets_pure.mpr ⟨rfl, rfl⟩
  · rintro e rest' ⟨⟨⟩, _⟩

theorem high_bit_clear (b : UInt8) : b &&& 0x80 = 0 ↔ b.toNat < 128 := by
  have h : ∀ x : BitVec 8, x &&& 128#8 = 0#8 ↔ x.toNat < 128 := by decide
  rw [← UInt8.toBitVec_inj]
  exact h b.toBitVec

theorem low_bits (b : UInt8) : (b &&& 0x7f).toUInt64.toNat = b.toNat % 128 := by
  rw [UInt8.toNat_toUInt64, UInt8.toNat_and]
  exact Nat.and_two_pow_sub_one_eq_mod b.toNat 7

theorem accumulate (len : UInt64) (b : UInt8) {shift : Nat} (hshift : shift ≤ 4)
    (hlen : len.toNat < 128 ^ shift) :
    (len ||| (b &&& 0x7f).toUInt64 <<< UInt64.ofNat (7 * shift)).toNat =
      len.toNat + 128 ^ shift * (b.toNat % 128) := by
  have hpow : 128 ^ shift = 2 ^ (7 * shift) := by rw [Nat.pow_mul]
  have hmod : (UInt64.ofNat (7 * shift)).toNat % 64 = 7 * shift := by
    rw [UInt64.toNat_ofNat']
    omega
  have hsmall : b.toNat % 128 * 2 ^ (7 * shift) < 2 ^ 64 := by
    have hb : b.toNat % 128 < 128 := Nat.mod_lt _ (by decide)
    calc b.toNat % 128 * 2 ^ (7 * shift) ≤ 128 * 2 ^ 28 :=
      Nat.mul_le_mul (by omega) (Nat.pow_le_pow_right (by decide) (by omega))
      _ < 2 ^ 64 := by decide
  rw [UInt64.toNat_or, UInt64.toNat_shiftLeft, hmod, low_bits, Nat.shiftLeft_eq,
    Nat.mod_eq_of_lt hsmall]
  rw [hpow] at hlen ⊢
  rw [Nat.or_comm, Nat.mul_comm, ← Nat.two_pow_add_eq_or_of_lt hlen, Nat.add_comm]

theorem accumulate_lt (len : UInt64) (b : UInt8) {shift : Nat} (hshift : shift ≤ 4)
    (hlen : len.toNat < 128 ^ shift) :
    (len ||| (b &&& 0x7f).toUInt64 <<< UInt64.ofNat (7 * shift)).toNat < 128 ^ (shift + 1) := by
  have hb : b.toNat % 128 ≤ 127 := Nat.le_of_lt_succ (Nat.mod_lt _ (by decide))
  have hmul : 128 ^ shift * (b.toNat % 128) ≤ 128 ^ shift * 127 := Nat.mul_le_mul_left _ hb
  rw [accumulate len b hshift hlen, Nat.pow_succ]
  omega

theorem readLen_sound (rounds shift : Nat) (len : UInt64) (unread : Bytes)
    (hrounds : rounds + shift = 5)
    (hshift : shift ≤ 4) (hlen : len.toNat < 128 ^ shift) :
    Meets Delivers (readLen rounds shift len) unread (fun r rest => ∀ n, r = .ok n →
      ∃ p, unread = p ++ rest ∧ Terminated p ∧ p.length ≤ rounds ∧ n.toNat =
        len.toNat + 128 ^ shift * value p) := by
  induction rounds generalizing shift len unread with
  | zero => omega
  | succ rounds ih =>
      refine (readByte_sound unread).bind ?_ (fun e rest _ => nofun)
      intro b rest hread
      have hread := hread b rfl
      have hsum := accumulate len b hshift hlen
      dsimp only
      split
      next hlast =>
        have hb := (high_bit_clear b).mp hlast
        refine meets_pure.mpr ?_
        rintro _ ⟨rfl⟩
        refine ⟨[b], hread, hb, by simp, ?_⟩
        rw [hsum, value_cons, value_nil, Nat.mul_zero, Nat.add_zero]
      next hmore =>
        have hb := fun h => hmore ((high_bit_clear b).mpr h)
        split
        next => exact meets_fail.mpr nofun
        next hfour =>
          refine (ih (shift + 1) _ rest (by omega) (by omega)
            (accumulate_lt len b hshift hlen)).mono ?_
          intro r rest' h n hn
          obtain ⟨p, hrest, hp, hplen, hvalue⟩ := h n hn
          refine ⟨b :: p, by rw [hread, hrest, List.cons_append], ?_, by simpa using hplen, ?_⟩
          · rw [terminated_cons, if_neg hb]
            exact hp
          · rw [hvalue, hsum, value_cons, Nat.pow_succ, Nat.mul_add, Nat.mul_assoc, Nat.add_assoc]

theorem readLen_complete (rounds shift : Nat) (len : UInt64) (p rest : Bytes)
    (hrounds : rounds + shift = 5)
    (hshift : shift ≤ 4) (hlen : len.toNat < 128 ^ shift) (hp : Terminated p) :
    Meets Flows (readLen rounds shift len) (p ++ rest) (fun r rest' =>
      if p.length ≤ rounds then
        ∃ n, r = .ok n ∧ n.toNat = len.toNat + 128 ^ shift * value p ∧ rest' = rest
      else r = .error varintTooLong) := by
  induction rounds generalizing shift len p with
  | zero => omega
  | succ rounds ih =>
      cases p with
      | nil => exact hp.elim
      | cons b p =>
          refine (readByte_complete b (p ++ rest)).bind ?_ (by rintro e rest' ⟨⟨⟩, _⟩)
          rintro _ rest' ⟨⟨rfl⟩, rfl⟩
          have hsum := accumulate len b hshift hlen
          rw [terminated_cons] at hp
          dsimp only
          split
          next hlast =>
            rw [if_pos ((high_bit_clear b).mp hlast)] at hp
            rw [hp]
            refine meets_pure.mpr ?_
            rw [if_pos (by simp)]
            refine ⟨_, rfl, ?_, rfl⟩
            rw [hsum, value_cons, value_nil, Nat.mul_zero, Nat.add_zero]
          next hmore =>
            rw [if_neg (fun h => hmore ((high_bit_clear b).mpr h))] at hp
            split
            next hfour =>
              have hpos := List.length_pos_iff.mpr hp.ne_nil
              refine meets_fail.mpr ?_
              rw [if_neg (by rw [List.length_cons]; omega)]
            next hfour =>
              refine (ih (shift + 1) _ p (by omega) (by omega)
                (accumulate_lt len b hshift hlen) hp).mono ?_
              intro r rest' h
              by_cases hfits : p.length ≤ rounds
              · rw [if_pos hfits] at h
                obtain ⟨n, hn, hvalue, hrest⟩ := h
                rw [if_pos (by simpa using hfits)]
                refine ⟨n, hn, ?_, hrest⟩
                rw [hvalue, hsum, value_cons, Nat.pow_succ, Nat.mul_add,
                  Nat.mul_assoc, Nat.add_assoc]
              · rw [if_neg hfits] at h
                rw [if_neg (by simpa using hfits)]
                exact h

/-- One whole frame: a length of at most five bytes and a body of that length
that decodes to the message. -/
structure IsFrame (codec : Codec M) (bytes : Bytes) (msg : M) : Prop where
  parts : ∃ p body, bytes = p ++ body ∧ Terminated p ∧ p.length ≤ 5 ∧ value p ≤ maxFrame.toNat ∧
    body.length = value p ∧ codec.decode body = .ok msg

theorem IsFrame.unique {f f' r r' : Bytes} {m m' : M} (h : IsFrame codec f m)
    (h' : IsFrame codec f' m')
    (heq : f ++ r = f' ++ r') : f = f' ∧ m = m' ∧ r = r' := by
  obtain ⟨p, body, rfl, hp, _, _, hbody, hm⟩ := h.parts
  obtain ⟨p', body', rfl, hp', _, _, hbody', hm'⟩ := h'.parts
  rw [List.append_assoc, List.append_assoc] at heq
  obtain ⟨rfl, hrest⟩ := hp.unique hp' heq
  obtain ⟨rfl, rfl⟩ := List.append_inj hrest (hbody.trans hbody'.symm)
  rw [hm] at hm'
  exact ⟨rfl, Except.ok.inj hm', rfl⟩

structure Framed (codec : Codec M) where
  bytes : Bytes
  message : M
  isFrame : IsFrame codec bytes message

def stream (frames : List (Framed codec)) : Bytes := frames.flatMap Framed.bytes

def messages (frames : List (Framed codec)) : List M := frames.map Framed.message

@[simp] theorem stream_cons (f : Framed codec) (fs : List (Framed codec)) :
    stream (f :: fs) = f.bytes ++ stream fs := List.flatMap_cons

/-- A stream can be cut into frames in one way only, up to where one stops. -/
theorem stream_comparable {fs gs : List (Framed codec)} {r s : Bytes}
    (h : stream fs ++ r = stream gs ++ s) :
    fs <+: gs ∨ gs <+: fs := by
  induction fs generalizing gs with
  | nil => exact .inl List.nil_prefix
  | cons f fs ih =>
      cases gs with
      | nil => exact .inr List.nil_prefix
      | cons g gs =>
          rw [stream_cons, stream_cons, List.append_assoc, List.append_assoc] at h
          obtain ⟨hbytes, hmessage, hrest⟩ := f.isFrame.unique g.isFrame h
          obtain rfl : f = g := by
            cases f
            cases g
            congr
          simpa only [List.cons_prefix_cons, true_and] using ih hrest

/-- A message that is read is the first frame of the stream, and exactly this
frame is consumed. -/
theorem readMessage_sound (unread : Bytes) : Meets Delivers (readMessage codec) unread
    (fun r rest => ∀ m, r = .ok m → ∃ f, unread = f ++ rest ∧ IsFrame codec f m) := by
  refine (readLen_sound 5 0 0 unread rfl (Nat.zero_le 4) (by decide)).bind ?_
    (fun e rest _ => nofun)
  intro len rest hlen
  obtain ⟨p, hread, hp, hplen, hvalue⟩ := hlen len rfl
  have hvalue : len.toNat = value p := by simpa using hvalue
  split
  · exact meets_fail.mpr nofun
  next hfits =>
    have hfits : len.toNat ≤ maxFrame.toNat := UInt64.le_iff_toNat_le.mp (UInt64.not_lt.mp hfits)
    refine (readExact_sound _ _ _ rest).bind ?_ (fun e rest' _ => nofun)
    rintro ⟨body, hbody⟩ rest' hrest
    have hrest := hrest _ rfl
    dsimp only
    cases hdecode : codec.decode body with
    | error e => exact meets_fail.mpr nofun
    | ok m =>
        refine meets_pure.mpr ?_
        rintro _ ⟨rfl⟩
        refine ⟨p ++
          body, by rw [hread, hrest, List.append_assoc], ⟨p, body, rfl, hp, hplen, ?_, ?_, hdecode⟩⟩
        · rwa [← hvalue]
        · rw [hbody, hvalue]

theorem readMessage_complete {f : Bytes} {m : M} (h : IsFrame codec f m) (rest : Bytes) :
    Meets Flows (readMessage codec) (f ++ rest) (fun r rest' => r = .ok m ∧ rest' = rest) := by
  obtain ⟨p, body, rfl, hp, hplen, hfits, hbody, hm⟩ := h.parts
  rw [List.append_assoc]
  refine (readLen_complete 5 0 0 p (body ++ rest) rfl (Nat.zero_le 4) (by decide) hp).bind ?_ ?_
  · intro len rest' hlen
    rw [if_pos hplen] at hlen
    obtain ⟨_, ⟨rfl⟩, hvalue, rfl⟩ := hlen
    have hvalue : len.toNat = value p := by simpa using hvalue
    have hnot : ¬len > maxFrame := by
      rw [gt_iff_lt, UInt64.not_lt, UInt64.le_iff_toNat_le, hvalue]
      exact hfits
    rw [if_neg hnot]
    refine (readExact_complete _ _ body rest (hbody.trans hvalue.symm)).bind ?_ ?_
    · rintro _ rest' ⟨⟨rfl⟩, rfl⟩
      dsimp only
      rw [hm]
      exact meets_pure.mpr ⟨rfl, rfl⟩
    · rintro e rest' ⟨⟨⟩, _⟩
  · intro e rest' hlen
    rw [if_pos hplen] at hlen
    obtain ⟨_, ⟨⟩, _⟩ := hlen

theorem readMessage_end :
    Meets Flows (readMessage codec) [] (fun r rest => (∃ e, r = .error e) ∧ rest = []) := by
  have hbyte : Meets Flows readByte [] (fun r _ => ∃ e, r = .error e) := by
    refine (readExact_short 1 1 (Nat.le_refl 1) [] Nat.one_pos).bind ?_ ?_
    · rintro _ rest ⟨e, ⟨⟩⟩
    · rintro e rest _
      exact ⟨e, rfl⟩
  have hlen : Meets Flows (readLen 5 0 0) [] (fun r _ => ∃ e, r = .error e) := by
    refine hbyte.bind ?_ ?_
    · rintro _ rest ⟨e, ⟨⟩⟩
    · rintro e rest _
      exact ⟨e, rfl⟩
  have hmessage : Meets Flows (readMessage codec) [] (fun r _ => ∃ e, r = .error e) := by
    refine hlen.bind ?_ ?_
    · rintro _ rest ⟨e, ⟨⟩⟩
    · rintro e rest _
      exact ⟨e, rfl⟩
  intro t r hrun rest hpath
  refine ⟨hmessage t r hrun rest hpath, hpath.invariant (I := fun unread => unread = []) ?_ rfl⟩
  · rintro unread ⟨o, answer⟩ rest' rfl ⟨hstep, _⟩
    cases o with
    | writeAll bytes => exact hstep
    | read n =>
        cases answer with
        | error e => exact hstep
        | ok bytes =>
            have hread : [] = bytes.1 ++ rest' := hstep
            exact (List.append_eq_nil_iff.mp hread.symm).2

theorem or_high_bit (b : UInt8) (h : b.toNat < 128) : (b ||| 0x80).toNat = b.toNat + 128 := by
  have hor : ∀ x : BitVec 8, x.toNat < 128 → (x ||| 128#8).toNat = x.toNat + 128 := by decide
  exact hor b.toBitVec h

theorem toNat_shiftRight_seven (len : UInt64) : (len >>> 7).toNat = len.toNat / 128 := by
  rw [UInt64.toNat_shiftRight]
  exact Nat.shiftRight_eq_div_pow len.toNat 7

theorem pushLen_succ (rounds : Nat) (len : UInt64) : pushLen (rounds + 1) len =
    if len.toNat < 128 then [UInt8.ofNat len.toNat]
      else UInt8.ofNat (len.toNat % 128 + 128) :: pushLen rounds (len >>> 7) := by
  have hlow : ((len &&& 0x7f).toUInt8).toNat = len.toNat % 128 := by
    have hand : len.toNat &&& 127 = len.toNat % 128 := Nat.and_two_pow_sub_one_eq_mod len.toNat 7
    rw [UInt64.toNat_toUInt8, UInt64.toNat_and]
    change (len.toNat &&& 127) % 256 = len.toNat % 128
    rw [hand]
    omega
  have hzero : len >>> 7 = 0 ↔ len.toNat < 128 := by
    rw [← UInt64.toNat_inj, toNat_shiftRight_seven]
    change len.toNat / 128 = 0 ↔ len.toNat < 128
    omega
  simp only [pushLen]
  by_cases h : len.toNat < 128
  · rw [if_pos h, if_pos (hzero.mpr h)]
    congr 1
    rw [← UInt8.toNat_inj, hlow, UInt8.toNat_ofNat']
    omega
  · rw [if_neg h, if_neg (fun hz => h (hzero.mp hz))]
    congr 1
    rw [← UInt8.toNat_inj, or_high_bit _ (by rw [hlow]; omega), hlow, UInt8.toNat_ofNat']
    omega

theorem pushLen_eq (rounds : Nat) (len : UInt64) (h : len.toNat < 128 ^ (rounds + 1)) :
    pushLen (rounds + 1) len = encode len.toNat := by
  induction rounds generalizing len with
  | zero =>
      have hlen : len.toNat < 128 := by simpa using h
      rw [pushLen_succ, if_pos hlen, encode_of_lt hlen]
  | succ rounds ih =>
      rw [pushLen_succ]
      split
      next hlen => rw [encode_of_lt hlen]
      next hlen =>
        rw [encode_of_le (Nat.not_lt.mp hlen), ih, toNat_shiftRight_seven]
        rw [toNat_shiftRight_seven]
        rw [Nat.pow_succ] at h
        exact Nat.div_lt_of_lt_mul (by rwa [Nat.mul_comm] at h)

theorem frame_eq {m : M} (h : (codec.encode m).length < 2 ^ 64) :
    frame codec m = encode (codec.encode m).length ++ codec.encode m := by
  have hlen : (UInt64.ofNat (codec.encode m).length).toNat = (codec.encode m).length := by
    rw [UInt64.toNat_ofNat']
    exact Nat.mod_eq_of_lt h
  unfold frame
  dsimp only
  rw [pushLen_eq 9 _ (by rw [hlen]; exact h.trans (by decide)), hlen]

theorem frame_isFrame {m : M} (hcodec : codec.decode (codec.encode m) = .ok m)
    (h : (codec.encode m).length ≤ maxFrame.toNat) : IsFrame codec (frame codec m) m := by
  have hmax : maxFrame.toNat = 1048576 := by decide
  rw [hmax] at h
  refine ⟨⟨encode (codec.encode m).length, codec.encode m, frame_eq (by omega), terminated_encode _,
    ?_, ?_, ?_, hcodec⟩⟩
  · exact length_encode_le (by omega)
  · rw [value_encode, hmax]
    exact h
  · rw [value_encode]

/-- A message beyond the limit is refused, whether its length still fits into
five bytes or not. -/
theorem readMessage_oversized {m : M} (hbig : maxFrame.toNat < (codec.encode m).length)
    (h : (codec.encode m).length < 2 ^ 64) (rest : Bytes) :
    Meets Flows (readMessage codec) (frame codec m ++ rest)
      (fun r _ => ∃ e, r = .error e ∧ e.kind = .invalidData) := by
  rw [frame_eq h, List.append_assoc]
  refine (readLen_complete 5 0 0 _ (codec.encode m ++ rest) rfl (Nat.zero_le 4) (by decide)
    (terminated_encode _)).bind ?_ ?_
  · intro len rest' hlen
    split at hlen
    next =>
      obtain ⟨_, ⟨rfl⟩, hvalue, _⟩ := hlen
      have hvalue : len.toNat = (codec.encode m).length := by simpa [value_encode] using hvalue
      have hexceeds : len > maxFrame := by
        rw [gt_iff_lt, UInt64.lt_iff_toNat_lt, hvalue]
        exact hbig
      rw [if_pos hexceeds]
      exact meets_fail.mpr ⟨_, rfl, rfl⟩
    next => cases hlen
  · intro e rest' hlen
    split at hlen
    next => obtain ⟨_, ⟨⟩, _⟩ := hlen
    next =>
      cases hlen
      exact ⟨_, rfl, rfl⟩

end AtvRemote.FramingRules
