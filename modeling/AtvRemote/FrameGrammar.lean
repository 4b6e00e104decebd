import AtvRemote.FramingRules

namespace AtvRemote.FrameGrammar

open Programs Contracts Errors Messages SystemCalls Framing Varints FramingRules

variable {M α : Type} {codec : Codec M}

/-- The bytes of an input in any portions. Its end shows as an empty read, or
is reported as an error of this kind. -/
def Serves (unread : Bytes) (e : Event ByteWire) (rest : Bytes) : Prop :=
  Flows unread e rest ∧ match e with
    | ⟨.read _, .error e⟩ => e.kind = .unexpectedEof
    | _ => True

theorem meets_serves {p : Program ByteWire IoError α} {unread : Bytes}
    {Q : Except IoError α → Bytes → Prop}
    (h : Meets Flows p unread Q) : Meets Serves p unread Q := by
  intro t r hrun rest hpath
  exact h t r hrun rest (hpath.mono fun _ _ _ hstep => hstep.1)

def Fails (kind : IoErrorKind) (r : Except IoError α) : Prop := ∃ e, r = .error e ∧ e.kind = kind

theorem readExact_errors (rounds n : Nat) (h : n ≤ rounds) (unread : Bytes) :
    Meets Serves (readExact rounds n h) unread
      (fun r _ => ∀ e, r = .error e → e.kind = .unexpectedEof) := by
  induction rounds generalizing n unread with
  | zero =>
      refine meets_pure.mpr ?_
      rintro _ ⟨⟩
  | succ rounds ih =>
      rw [readExact]
      split
      · refine meets_pure.mpr ?_
        rintro _ ⟨⟩
      · refine meets_call.mpr fun answer rest hstep => ?_
        cases answer with
        | error e =>
            refine meets_fail.mpr ?_
            rintro _ ⟨rfl⟩
            exact hstep.2
        | ok portion =>
            dsimp only
            split
            · refine meets_fail.mpr ?_
              rintro _ ⟨rfl⟩
              rfl
            · refine (ih _ _ rest).bind ?_ ?_
              · intro more rest' _
                refine meets_pure.mpr ?_
                rintro _ ⟨⟩
              · rintro e rest' he _ ⟨rfl⟩
                exact he e rfl

theorem readExact_ends (rounds n : Nat) (h : n ≤ rounds) (unread : Bytes)
    (hshort : unread.length < n) :
    Meets Serves (readExact rounds n h) unread (fun r _ => Fails .unexpectedEof r) := by
  intro t r hrun rest hpath
  obtain ⟨e, rfl⟩ := meets_serves (readExact_short rounds n h unread hshort) t r hrun rest hpath
  exact ⟨e, rfl, readExact_errors rounds n h unread t _ hrun rest hpath e rfl⟩

theorem readByte_ends : Meets Serves readByte [] (fun r _ => Fails .unexpectedEof r) := by
  refine (readExact_ends 1 1 (Nat.le_refl 1) [] Nat.one_pos).bind ?_ ?_
  · rintro _ rest ⟨e, ⟨⟩, _⟩
  · rintro e rest ⟨_, ⟨rfl⟩, he⟩
    exact ⟨e, rfl, he⟩

theorem high_bit_set {b : UInt8} (h : 128 ≤ b.toNat) : ¬b &&& 0x80 = 0 := by
  intro hclear
  exact absurd ((high_bit_clear b).mp hclear) (Nat.not_lt.mpr h)

/-- The input ends while all its bytes ask for another one. -/
theorem readLen_ends (rounds shift : Nat) (len : UInt64) (unread : Bytes)
    (hrounds : rounds + shift = 5)
    (hshort : unread.length < rounds) (hhigh : ∀ b ∈ unread, 128 ≤ b.toNat) :
    Meets Serves (readLen rounds shift len) unread (fun r _ => Fails .unexpectedEof r) := by
  induction rounds generalizing shift len unread with
  | zero => omega
  | succ rounds ih =>
      cases unread with
      | nil =>
          refine readByte_ends.bind ?_ ?_
          · rintro _ rest ⟨e, ⟨⟩, _⟩
          · rintro e rest ⟨_, ⟨rfl⟩, he⟩
            exact ⟨e, rfl, he⟩
      | cons b unread =>
          obtain ⟨hb, hhigh⟩ := List.forall_mem_cons.mp hhigh
          have hshort : unread.length < rounds := Nat.lt_of_succ_lt_succ hshort
          refine (meets_serves (readByte_complete b unread)).bind ?_ ?_
          · rintro _ rest ⟨⟨rfl⟩, rfl⟩
            dsimp only
            rw [if_neg (high_bit_set hb), if_neg (by omega)]
            exact ih (shift + 1) _ rest (by omega) hshort hhigh
          · rintro e rest ⟨⟨⟩, _⟩

theorem readLen_tooLong (rounds shift : Nat) (len : UInt64) (p after : Bytes)
    (hrounds : rounds + shift = 5)
    (hshift : shift ≤ 4) (hp : p.length = rounds) (hhigh : ∀ b ∈ p, 128 ≤ b.toNat) :
    Meets Serves (readLen rounds shift len) (p ++ after) (fun r rest => r = .error varintTooLong ∧
      rest = after) := by
  induction rounds generalizing shift len p with
  | zero => omega
  | succ rounds ih =>
      obtain ⟨b, p, rfl⟩ := List.exists_cons_of_length_eq_add_one hp
      obtain ⟨hb, hhigh⟩ := List.forall_mem_cons.mp hhigh
      have hp : p.length = rounds := Nat.succ.inj hp
      refine (meets_serves (readByte_complete b (p ++ after))).bind ?_ ?_
      · rintro _ rest ⟨⟨rfl⟩, rfl⟩
        dsimp only
        rw [if_neg (high_bit_set hb)]
        split
        next hfour =>
          obtain rfl : p = [] := List.eq_nil_of_length_eq_zero (by omega)
          exact meets_fail.mpr ⟨rfl, rfl⟩
        next hfour => exact ih (shift + 1) _ p (by omega) (by omega) hp hhigh
      · rintro e rest ⟨⟨⟩, _⟩

/-- The length that a prefix announces. -/
def announced (p : Bytes) : Nat := (p.mapIdx fun i b => b.toNat % 128 * 2 ^ (7 * i)).sum

theorem announced_eq (p : Bytes) : announced p = value p := by
  unfold announced value
  rw [Nat.ofDigits_eq_sum_mapIdx]
  congr 1
  apply List.ext_getElem
  · simp
  · intro i h h'
    simp [Nat.pow_mul]

/-- What comes of an input, with the bytes it leaves unread. -/
structure ReadAs (codec : Codec M) (input : Bytes) (r : Except IoError M) (rest : Bytes) :
    Prop where
  endsInLength : input.length < 5 → (∀ b ∈ input, 128 ≤ b.toNat) → Fails .unexpectedEof r
  tooLong : ∀ p after, input = p ++ after → p.length = 5 → (∀ b ∈ p, 128 ≤ b.toNat) →
    Fails .invalidData r ∧ rest = after
  oversized : ∀ p after, input = p ++ after → Terminated p → p.length ≤ 5 → 2 ^ 20 < announced p →
    Fails .invalidData r ∧ rest = after
  endsInBody : ∀ p body, input = p ++ body → Terminated p → p.length ≤ 5 → announced p ≤ 2 ^ 20 →
    body.length < announced p → Fails .unexpectedEof r
  whole : ∀ p body after, input = p ++ (body ++ after) → Terminated p → p.length ≤ 5 →
    announced p ≤ 2 ^ 20 →
    body.length = announced p → rest = after ∧ match codec.decode body with
      | .ok m => r = .ok m
      | .error _ => Fails .invalidData r
  accepted : ∀ m, r = .ok m → ∃ p body, input = p ++ (body ++ rest) ∧ Terminated p ∧ p.length ≤ 5 ∧
    announced p ≤ 2 ^ 20 ∧ body.length = announced p ∧ codec.decode body = .ok m

theorem readMessage_endsInLength {input : Bytes} (hlen : input.length < 5)
    (hhigh : ∀ b ∈ input, 128 ≤ b.toNat) :
    Meets Serves (readMessage codec) input (fun r _ => Fails .unexpectedEof r) := by
  refine (readLen_ends 5 0 0 input rfl hlen hhigh).bind ?_ ?_
  · rintro _ rest ⟨_, ⟨⟩, _⟩
  · rintro e rest ⟨_, ⟨rfl⟩, he⟩
    exact ⟨e, rfl, he⟩

theorem readMessage_tooLong {p after : Bytes} (hp : p.length = 5) (hhigh : ∀ b ∈ p, 128 ≤ b.toNat) :
    Meets Serves (readMessage codec) (p ++ after) (fun r rest => Fails .invalidData r ∧
      rest = after) := by
  refine (readLen_tooLong 5 0 0 p after rfl (Nat.zero_le 4) hp hhigh).bind ?_ ?_
  · rintro _ rest ⟨⟨⟩, _⟩
  · rintro e rest ⟨⟨rfl⟩, rfl⟩
    exact ⟨⟨_, rfl, rfl⟩, rfl⟩

/-- After a whole prefix, what the rest of the input makes of the length. -/
theorem readMessage_prefix {p after : Bytes} {Q : Except IoError M → Bytes → Prop}
    (hp : Terminated p)
    (hlen : p.length ≤ 5) (exceeds : 2 ^ 20 < announced p → Q (.error frameExceeds) after)
    (body : announced p ≤ 2 ^ 20 → Meets Serves (do
      let body ← readExact (announced p) (announced p) (Nat.le_refl _)
      match codec.decode body.1 with
      | .ok msg => pure msg
      | .error e => .fail ⟨.invalidData, e⟩) after Q) :
    Meets Serves (readMessage codec) (p ++ after) Q := by
  refine (meets_serves (readLen_complete 5 0 0 p after rfl (Nat.zero_le 4) (by decide) hp)).bind ?_
    ?_
  · intro len rest h
    rw [if_pos hlen] at h
    obtain ⟨_, ⟨rfl⟩, hvalue, rfl⟩ := h
    have hvalue : len.toNat = announced p := by simpa [announced_eq] using hvalue
    have hmax : maxFrame.toNat = 2 ^ 20 := by decide
    rw [← hvalue] at exceeds body
    split
    next hexceeds =>
      rw [gt_iff_lt, UInt64.lt_iff_toNat_lt, hmax] at hexceeds
      exact meets_fail.mpr (exceeds hexceeds)
    next hfits =>
      rw [gt_iff_lt, UInt64.not_lt, UInt64.le_iff_toNat_le, hmax] at hfits
      exact body hfits
  · intro e rest h
    rw [if_pos hlen] at h
    obtain ⟨_, ⟨⟩, _⟩ := h

theorem readMessage_oversized {p after : Bytes} (hp : Terminated p) (hlen : p.length ≤ 5)
    (hover : 2 ^ 20 < announced p) :
    Meets Serves (readMessage codec) (p ++ after) (fun r rest => Fails .invalidData r ∧
      rest = after) := by
  refine readMessage_prefix hp hlen ?_ ?_
  · intro _
    exact ⟨⟨_, rfl, rfl⟩, rfl⟩
  · intro hfits
    exact absurd hover (Nat.not_lt.mpr hfits)

theorem readMessage_endsInBody {p body : Bytes} (hp : Terminated p) (hlen : p.length ≤ 5)
    (hfits : announced p ≤ 2 ^ 20)
    (hshort : body.length < announced p) :
    Meets Serves (readMessage codec) (p ++ body) (fun r _ => Fails .unexpectedEof r) := by
  refine readMessage_prefix hp hlen ?_ ?_
  · intro hover
    exact absurd hover (Nat.not_lt.mpr hfits)
  · intro _
    refine (readExact_ends _ _ _ body hshort).bind ?_ ?_
    · rintro _ rest ⟨_, ⟨⟩, _⟩
    · rintro e rest ⟨_, ⟨rfl⟩, he⟩
      exact ⟨e, rfl, he⟩

theorem readMessage_whole {p body after : Bytes} (hp : Terminated p) (hlen : p.length ≤ 5)
    (hfits : announced p ≤ 2 ^ 20)
    (hbody : body.length = announced p) :
    Meets Serves (readMessage codec) (p ++ (body ++ after))
      (fun r rest => rest = after ∧ match codec.decode body with
      | .ok m => r = .ok m
      | .error _ => Fails .invalidData r) := by
  refine readMessage_prefix hp hlen ?_ ?_
  · intro hover
    exact absurd hover (Nat.not_lt.mpr hfits)
  · intro _
    refine (meets_serves (readExact_complete _ (Nat.le_refl _) body after hbody)).bind ?_ ?_
    · rintro _ rest ⟨⟨rfl⟩, rfl⟩
      dsimp only
      split
      · exact meets_pure.mpr ⟨rfl, rfl⟩
      · exact meets_fail.mpr ⟨rfl, _, rfl, rfl⟩
    · rintro e rest ⟨⟨⟩, _⟩

/-- Some way to read the input takes all of it for one message. -/
def Accepts (codec : Codec M) (input : Bytes) : Prop :=
  ∃ t m, Run (readMessage codec) t (.ok m) ∧ Path Serves input t []

theorem readMessage_accepted {input rest : Bytes} {m : M} {t : Trace ByteWire}
    (hrun : Run (readMessage codec) t (.ok m))
    (hpath : Path Serves input t rest) : ∃ f, input = f ++ rest ∧ IsFrame codec f m :=
  readMessage_sound input t _ hrun rest (hpath.mono fun _ _ _ hstep => hstep.1.1) m rfl

/-- On every input, cut into reads in any way, `readMessage` follows the
grammar of frames, and it takes no beginning of a frame for a message. -/
theorem readMessage_grammar (codec : Codec M) (input : Bytes) (t : Trace ByteWire)
    (r : Except IoError M) (rest : Bytes)
    (hrun : Run (readMessage codec) t r) (hpath : Path Serves input t rest) :
    ReadAs codec input r rest ∧ ∀ more, more ≠ [] → Accepts codec (input ++ more) →
      ∀ m, r ≠ .ok m := by
  constructor
  · constructor
    · intro hlen hhigh
      exact readMessage_endsInLength hlen hhigh t r hrun rest hpath
    · rintro p after rfl hp hhigh
      exact readMessage_tooLong hp hhigh t r hrun rest hpath
    · rintro p after rfl hp hlen hover
      exact readMessage_oversized hp hlen hover t r hrun rest hpath
    · rintro p body rfl hp hlen hfits hshort
      exact readMessage_endsInBody hp hlen hfits hshort t r hrun rest hpath
    · rintro p body after rfl hp hlen hfits hbody
      exact readMessage_whole hp hlen hfits hbody t r hrun rest hpath
    · rintro m rfl
      obtain ⟨_, rfl, hframe⟩ := readMessage_accepted hrun hpath
      obtain ⟨p, body, rfl, hp, hlen, hfits, hbody, hdecode⟩ := hframe.parts
      have hmax : maxFrame.toNat = 2 ^ 20 := by decide
      rw [hmax] at hfits
      rw [← announced_eq] at hfits hbody
      exact ⟨p, body, List.append_assoc _ _ _, hp, hlen, hfits, hbody, hdecode⟩
  · rintro more hmore ⟨t', m', hrun', hpath'⟩ m rfl
    obtain ⟨f, rfl, hframe⟩ := readMessage_accepted hrun hpath
    obtain ⟨f', heq, hframe'⟩ := readMessage_accepted hrun' hpath'
    rw [List.append_assoc] at heq
    obtain ⟨_, _, hnil⟩ := hframe.unique hframe' heq
    exact hmore (List.append_eq_nil_iff.mp hnil).2

def serve : (o : ByteOp) → Bytes → ByteOp.Answer o × Bytes
  | .read n, unread => (.ok ⟨unread.take n, List.length_take_le _ _⟩, unread.drop n)
  | .writeAll _, unread => (.ok (), unread)

theorem serve_serves (o : ByteOp) (unread : Bytes) :
    Serves unread ⟨o, (serve o unread).1⟩ (serve o unread).2 := by
  cases o with
  | read n =>
      refine ⟨⟨(List.take_append_drop n unread).symm, fun hnil => ?_⟩, trivial⟩
      exact (List.take_eq_nil_iff.mp hnil).symm
  | writeAll bytes => exact ⟨⟨rfl, rfl⟩, trivial⟩

abbrev reading (codec : Codec M) (input : Bytes) : Trace ByteWire × Except IoError M × Bytes :=
  (readMessage codec).exec (S := ByteWire) serve input

theorem path_reading (codec : Codec M) (input : Bytes) :
    Path Serves input (reading codec input).1 (reading codec input).2.2 :=
  path_exec (f := id) serve_serves (readMessage codec) input

/-- Messages that are any bytes. -/
def rawCodec : Codec Bytes := ⟨id, .ok⟩

/-- An empty message behind a length padded to three bytes, and a byte more. -/
theorem readMessage_grammar_padded : let outcome := reading rawCodec [0x80, 0x80, 0x00, 0x07]
    ReadAs rawCodec [0x80, 0x80, 0x00, 0x07] outcome.2.1 outcome.2.2 ∧
      ∀ more, more ≠ [] → Accepts rawCodec ([0x80, 0x80, 0x00, 0x07] ++ more) →
        ∀ m, outcome.2.1 ≠ .ok m :=
  readMessage_grammar rawCodec _ _ _ _ (run_exec _ _ _) (path_reading _ _)

/-- A length above the limit is refused before the input can end in the body. -/
theorem readMessage_refuses_short :
    ¬∀ (M : Type) (codec : Codec M) (p body : Bytes) (t : Trace ByteWire)
    (r : Except IoError M) (rest : Bytes), Terminated p → p.length ≤ 5 → body.length < announced p →
      Run (readMessage codec) t r → Path Serves (p ++ body) t rest → Fails .unexpectedEof r := by
  intro h
  have hp : Terminated [0x80, 0x80, 0x80, 0x01] :=
    ⟨by decide, by decide, by decide, (by decide : (0x01 : UInt8).toNat < 128)⟩
  have hover : announced [0x80, 0x80, 0x80, 0x01] = 2097152 := by decide
  have hrun : Run (readMessage rawCodec) _ (reading rawCodec [0x80, 0x80, 0x80, 0x01, 0x00]).2.1 :=
    run_exec _ _ _
  have hpath := path_reading rawCodec [0x80, 0x80, 0x80, 0x01, 0x00]
  obtain ⟨e, he, hkind⟩ := h Bytes rawCodec [0x80, 0x80, 0x80, 0x01] [0x00] _ _ _ hp (by decide)
    (by rw [hover]; decide) hrun hpath
  obtain ⟨⟨e', he', hkind'⟩, _⟩ :=
    readMessage_oversized hp (by decide) (by rw [hover]; decide) _ _ hrun _ hpath
  rw [he] at he'
  cases he'
  rw [hkind] at hkind'
  cases hkind'

end AtvRemote.FrameGrammar
