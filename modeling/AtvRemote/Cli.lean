import AtvRemote.KeyNames

namespace AtvRemote.Cli

open Messages Texts KeyNames

/-- The keys of the command line: numbers, and names with or without the
prefix in any case. `debug` is the quoted form of a text in messages. -/
def parseKeycode (debug : String → String) (s : String) : Except String Int32 :=
  match parseI32 s with
  | some n =>
      match RemoteKeyCode.tryFrom n with
      | some k => .ok k.toI32
      | none => .error s!"{n} is not a known Android keycode"
  | none =>
      let upper := toAsciiUppercase s
      let name := if startsWith upper "KEYCODE_" then upper else "KEYCODE_" ++ upper
      match RemoteKeyCode.fromStrName name with
      | some k => .ok k.toI32
      | none => .error s!"unknown keycode {debug s} (expected e.g. VOLUME_UP or KEYCODE_POWER)"

theorem parseI32_letters {s : String} {rest : List Char}
    (h : s.toList = "KEYCODE_".toList ++ rest) : parseI32 s = none := by
  have hhead : s.toList = 'K' :: ("EYCODE_".toList ++ rest) := h
  rw [parseI32, hhead]
  rfl

theorem toAsciiUppercase_letters {s : String} (h : ∀ c ∈ s.toList, c.toUpper = c) :
    toAsciiUppercase s = s := by
  have hmap : s.toList.map Char.toUpper = s.toList := (List.map_congr_left h).trans (List.map_id _)
  rw [toAsciiUppercase, hmap, String.ofList_toList]

variable {debug : String → String}

/-- Every name stands for its own code. -/
theorem parseKeycode_asStrName (k : RemoteKeyCode) :
    parseKeycode debug k.asStrName = .ok k.toI32 := by
  obtain ⟨⟨rest, hrest⟩, hupper⟩ := asStrName_letters k
  have hstart : startsWith k.asStrName "KEYCODE_" = true := by
    rw [startsWith, hrest]
    exact List.isPrefixOf_iff_prefix.mpr (List.prefix_append _ _)
  simp only [parseKeycode, parseI32_letters hrest, toAsciiUppercase_letters hupper, hstart, if_true,
    fromStrName_asStrName]

theorem parseKeycode_named {s : String} {code : Int32} (h : parseKeycode debug s = .ok code) :
    ∃ k : RemoteKeyCode, code = k.toI32 := by
  unfold parseKeycode at h
  split at h
  · split at h
    · exact ⟨_, (Except.ok.inj h).symm⟩
    · cases h
  · dsimp only at h
    split at h
    · exact ⟨_, (Except.ok.inj h).symm⟩
    · cases h

example : ["VOLUME_UP", "KEYCODE_DPAD_CENTER", "26"].map (parseKeycode String.quote) =
      [24, 23, 26].map .ok := by decide +kernel

end AtvRemote.Cli
