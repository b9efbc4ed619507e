import Zbus.Variant

/-!
The `Variant` codec as a whole: what `from_data` makes of the constructors' encodings and the
constructors of what it decodes, what the accessors return, where the code can panic, and which
buffers it accepts. `copy_string` keeps the length prefix, the content and one byte for the
terminator but never looks at that byte; `copy_signature` keeps one byte fewer than the encoder
writes, so no signature string survives the round trip; `get_string` reads to the end of the
value, the terminator included; and on a 32-bit target `read_u32(data) as usize + 5` can overflow.
-/
namespace Zbus.VariantCodec
open Zbus.Core Zbus.Utf8 Zbus.Variant

/-! ### Round trips -/

theorem encode_string_length (target : Target) (s : Str) : (encode_string target s).length = s.len + 5 := by
  simp [encode_string, Str.len]; omega

theorem read_u32_encode_string (target : Target) (s : Str) :
    target.read_u32 (encode_string target s) = .ok (UInt32.ofNat s.len) := by
  rw [encode_string, List.append_assoc, read_u32_to_ne_bytes]

/-- The bytes of a string variant are read back whole, prefix and terminator included. -/
theorem from_data_encode_string {signature : Str} (string : signature = "s" ∨ signature = "o")
    {target : Target} {s : Str} (fits : s.len < 2 ^ 32) (object : s.len ≤ target.isizeMax) :
    Variant.from_data target (encode_string target s) signature = .ok (.ok ⟨signature, encode_string target s⟩) := by
  have prefixLength : (UInt32.ofNat s.len).toNat = s.len := by rw [UInt32.toNat_ofNat']; exact Nat.mod_eq_of_lt fits
  have room := target.isizeMax_add_lt 5 (le_refl 5)
  rw [from_data_string string, copy_string_eq (read_u32_encode_string target s) (by omega), prefixLength,
    encode_string_length, if_neg (lt_irrefl _), ← encode_string_length target s, List.take_length]
  rfl

theorem from_data_encode_u32 (target : Target) (x : UInt32) :
    Variant.from_data target (encode_u32 target x) "u" = .ok (.ok ⟨"u", encode_u32 target x⟩) := by
  rw [from_data_u, encode_u32, to_ne_bytes_length, if_neg (by decide), ← to_ne_bytes_length target x,
    List.take_length]

/-- A `u` value `from_data` returns is re-encoded by `from_u32` of what `get_u32` reads. -/
theorem reencode_u32 {target : Target} {data : List UInt8} {w : Variant}
    (decoded : Variant.from_data target data "u" = .ok (.ok w)) :
    ∃ x, w.get_u32 target = .ok (.ok x) ∧ (Variant.from_u32 target x).get_bytes = w.get_bytes := by
  rw [from_data_u] at decoded
  split at decoded
  · cases decoded
  · cases decoded
    have four : (data.take 4).length = 4 := by simp; omega
    obtain ⟨x, read⟩ := @read_u32_of_length target _ (by omega : 4 ≤ (data.take 4).length)
    refine ⟨x, ?_, ?_⟩
    · simp [Variant.get_u32, four, read]
    · rw [Variant.get_bytes, Variant.from_u32, encode_u32, to_ne_bytes_read_u32 read, List.take_take, min_self]
      rfl

/-- A string value `from_data` returns ends in the byte after the content, whatever it is. -/
theorem reencode_string {target : Target} {data : List UInt8} {signature : Str} {w : Variant} {len : UInt32}
    {c : Str} (string : signature = "s" ∨ signature = "o") (decoded : Variant.from_data target data signature = .ok (.ok w))
    (read : target.read_u32 data = .ok len) (fits : len.toNat + 5 < 2 ^ target.width)
    (content : c.bytes = (data.drop 4).take len.toNat) :
    encode_string target c = w.get_bytes ↔ w.get_bytes.getLast? = some 0 := by
  rw [from_data_string string, copy_string_eq read fits] at decoded
  split at decoded
  · cases decoded
  · rename_i long
    cases decoded
    have contentLength : c.len = len.toNat := by simp [Str.len, content]; omega
    have prefixBytes : target.to_ne_bytes (UInt32.ofNat c.len) = data.take 4 := by
      rw [contentLength, UInt32.ofNat_toNat', to_ne_bytes_read_u32 read]
    have inside : len.toNat < (data.drop 4).length := by simp; omega
    have last : (data.drop 4).take (len.toNat + 1) = (data.drop 4).take len.toNat ++ [(data.drop 4)[len.toNat]] := by
      rw [List.take_succ, List.getElem?_eq_getElem inside]; rfl
    have split : data.take (len.toNat + 5) = data.take 4 ++ ((data.drop 4).take len.toNat ++ [(data.drop 4)[len.toNat]]) := by
      rw [show len.toNat + 5 = 4 + (len.toNat + 1) by omega, List.take_add, last]
    rw [Variant.get_bytes, split, encode_string, prefixBytes, ← content, ← List.append_assoc,
      List.getLast?_concat, List.append_cancel_left_eq]
    simp [eq_comm]

/-- What the codec round-trips: every `u`, `s` and `o` variant is read back whole, and a decoded
value is re-encoded exactly when its terminator byte is NUL. -/
theorem from_data_round_trip (target : Target) :
    (∀ x : UInt32, Variant.from_data target (Variant.from_u32 target x).get_bytes
        (Variant.from_u32 target x).get_signature = .ok (.ok (Variant.from_u32 target x))) ∧
    (∀ s : Str, s.len < 2 ^ 32 → s.len ≤ target.isizeMax →
      Variant.from_data target (Variant.from_string target s).get_bytes
          (Variant.from_string target s).get_signature = .ok (.ok (Variant.from_string target s)) ∧
      Variant.from_data target (Variant.from_object_path target s).get_bytes
          (Variant.from_object_path target s).get_signature = .ok (.ok (Variant.from_object_path target s))) ∧
    (∀ data w, Variant.from_data target data "u" = .ok (.ok w) →
      ∃ x, w.get_u32 target = .ok (.ok x) ∧ (Variant.from_u32 target x).get_bytes = w.get_bytes) ∧
    (∀ data w (len : UInt32) (c : Str), target.read_u32 data = .ok len → len.toNat + 5 < 2 ^ target.width →
      c.bytes = (data.drop 4).take len.toNat →
      (Variant.from_data target data "s" = .ok (.ok w) →
        ((Variant.from_string target c).get_bytes = w.get_bytes ↔ w.get_bytes.getLast? = some 0)) ∧
      (Variant.from_data target data "o" = .ok (.ok w) →
        ((Variant.from_object_path target c).get_bytes = w.get_bytes ↔ w.get_bytes.getLast? = some 0))) :=
  ⟨fun x => from_data_encode_u32 target x,
    fun _ fits object => ⟨from_data_encode_string (.inl rfl) fits object, from_data_encode_string (.inr rfl) fits object⟩,
    fun _ _ decoded => reencode_u32 decoded,
    fun _ _ _ _ read fits content => ⟨fun decoded => reencode_string (.inl rfl) decoded read fits content,
      fun decoded => reencode_string (.inr rfl) decoded read fits content⟩⟩

theorem from_data_round_trip_x86_64 :
    Variant.from_data (Target.x86_64 true) (Variant.from_string (Target.x86_64 true) "ok").get_bytes
        (Variant.from_string (Target.x86_64 true) "ok").get_signature =
      .ok (.ok (Variant.from_string (Target.x86_64 true) "ok")) ∧
    ((Variant.from_string (Target.x86_64 true) "ok").get_bytes = Variant.get_bytes ⟨"s", [2, 0, 0, 0, 111, 107, 0]⟩ ↔
      (Variant.get_bytes ⟨"s", [2, 0, 0, 0, 111, 107, 0]⟩).getLast? = some 0) :=
  ⟨((from_data_round_trip (Target.x86_64 true)).2.1 "ok" (by decide) (by decide)).1,
    ((from_data_round_trip (Target.x86_64 true)).2.2.2 [2, 0, 0, 0, 111, 107, 0] ⟨"s", [2, 0, 0, 0, 111, 107, 0]⟩ 2 "ok"
      (by decide) (by decide) (by decide)).1 (by decide)⟩

/-- `from_data` takes any byte after a string's content for its terminator, and `from_string`
writes a NUL there instead. -/
theorem from_data_unterminated_string :
    Variant.from_data (Target.x86_64 true) [0, 0, 0, 0, 1] "s" = .ok (.ok ⟨"s", [0, 0, 0, 0, 1]⟩) ∧
    (Variant.from_string (Target.x86_64 true) "").get_bytes = [0, 0, 0, 0, 0] := by decide

/-! ### Accessors -/

/-- `get_string` returns a string value's content followed by its terminator. -/
theorem get_string_encode_string (target : Target) (s : Str) {signature : Str} (string : signature = "s" ∨ signature = "o") :
    (⟨signature, encode_string target s⟩ : Variant).get_string = .ok (.ok (s ++ "\x00")) := by
  have start : string_start signature = some 4 := if_pos string
  simp only [Variant.get_string, start, encode_string, List.append_assoc]
  rw [index_from_of_le (by simp), List.drop_left' (to_ne_bytes_length target _)]
  simp only [ok_bind]
  rw [show s.bytes ++ [0] = (s ++ "\x00").bytes from rfl, from_utf8_bytes]
  rfl

theorem get_string_encode_string_object_path :
    (("o" : Str) = "s" ∨ ("o" : Str) = "o") ∧
      (⟨"o", encode_string (Target.x86_64 true) "ok"⟩ : Variant).get_string = .ok (.ok ("ok" ++ "\x00")) :=
  ⟨.inr rfl, get_string_encode_string (Target.x86_64 true) "ok" (.inr rfl)⟩

/-- `get_string` returns a signature value's content followed by its terminator, for every string
whose buffer `Vec::with_capacity(2 + len)` can allocate. -/
theorem get_string_from_signature_string (target : Target) (s : Str) :
    2 + s.len ≤ target.isizeMax → (Variant.from_signature_string s).get_string = .ok (.ok (s ++ "\x00")) := by
  intro _
  have start : string_start "g" = some 1 := by decide
  simp only [Variant.get_string, Variant.from_signature_string, start, encode_signature, List.append_assoc]
  rw [index_from_of_le (by simp), List.singleton_append, List.drop_one, List.tail_cons]
  simp only [ok_bind]
  rw [show s.bytes ++ [0] = (s ++ "\x00").bytes from rfl, from_utf8_bytes]
  rfl

theorem get_string_from_signature_string_as :
    2 + (Str.ofString "as").len ≤ (Target.x86_64 true).isizeMax ∧
      (Variant.from_signature_string "as").get_string = .ok (.ok ("as" ++ "\x00")) :=
  ⟨by decide, get_string_from_signature_string (Target.x86_64 true) "as" (by decide)⟩

theorem get_u32_from_u32 (target : Target) (x : UInt32) :
    (Variant.from_u32 target x).get_u32 target = .ok (.ok x) := by
  have four : (encode_u32 target x).length = 4 := to_ne_bytes_length target x
  have read : target.read_u32 (encode_u32 target x) = .ok x := by
    simpa using read_u32_to_ne_bytes target x []
  simp [Variant.get_u32, Variant.from_u32, four, read]

/-- `get_string` keeps the NUL that every string constructor writes. -/
theorem get_string_empty :
    (Variant.from_string (Target.x86_64 true) "").get_string = .ok (.ok "\x00") ∧
    (Variant.from_object_path (Target.x86_64 true) "").get_string = .ok (.ok "\x00") ∧
    (Variant.from_signature_string "").get_string = .ok (.ok "\x00") := by decide

/-! ### Panics -/

/-- The representation the accessors index under: a `u` value has four bytes, an `s` or `o`
value at least its four-byte prefix and a `g` value at least its length byte. -/
structure WellFormed (v : Variant) : Prop where
  u32 : v.signature = "u" → v.value.length = 4
  string : v.signature = "s" ∨ v.signature = "o" → 4 ≤ v.value.length
  signature : v.signature = "g" → 1 ≤ v.value.length

/-- The variants a program can hold: those the constructors and `from_data` return. -/
inductive Reachable (target : Target) : Variant → Prop
  | from_data {data : List UInt8} {signature : Str} {v : Variant} :
      Variant.from_data target data signature = .ok (.ok v) → Reachable target v
  | from_string (s : Str) : Reachable target (Variant.from_string target s)
  | from_object_path (s : Str) : Reachable target (Variant.from_object_path target s)
  | from_signature_string (s : Str) : Reachable target (Variant.from_signature_string s)
  | from_u32 (x : UInt32) : Reachable target (Variant.from_u32 target x)

theorem wellFormed_u32 {value : List UInt8} (four : value.length = 4) : WellFormed ⟨"u", value⟩ where
  u32 _ := four
  string string := by rcases string with s | o <;> exact absurd ‹_› (by decide : ¬ (("u" : Str) = _))
  signature g := absurd g (by decide : ¬ (("u" : Str) = "g"))

theorem wellFormed_string {signature : Str} (string : signature = "s" ∨ signature = "o") {value : List UInt8}
    (long : 4 ≤ value.length) : WellFormed ⟨signature, value⟩ where
  u32 u := by
    rcases string with rfl | rfl
    exacts [absurd u (by decide : ¬ (("s" : Str) = "u")), absurd u (by decide : ¬ (("o" : Str) = "u"))]
  string _ := long
  signature _ := Nat.le_trans (by decide) long

theorem wellFormed_signature {value : List UInt8} (long : 1 ≤ value.length) : WellFormed ⟨"g", value⟩ where
  u32 u := absurd u (by decide : ¬ (("g" : Str) = "u"))
  string string := by rcases string with s | o <;> exact absurd ‹_› (by decide : ¬ (("g" : Str) = _))
  signature _ := long

/-- On a target whose `usize` is wider than 32 bits `from_data` never panics, and what it
returns is well formed. -/
theorem from_data_wellFormed {target : Target} (wide : 33 ≤ target.width) (data : List UInt8) (signature : Str) :
    ∃ r, Variant.from_data target data signature = .ok r ∧ ∀ v, r = .ok v → WellFormed v := by
  by_cases u : signature = "u"
  · subst u
    refine ⟨_, from_data_u target data, fun v decoded => ?_⟩
    split at decoded
    · cases decoded
    · cases decoded; exact wellFormed_u32 (by simp; omega)
  by_cases string : signature = "s" ∨ signature = "o"
  · rw [from_data_string string]
    by_cases short : data.length < 4
    · exact ⟨_, by rw [copy_string_short short]; rfl, fun _ decoded => by cases decoded⟩
    obtain ⟨len, read⟩ := @read_u32_of_length target data (by omega)
    rw [copy_string_eq read (prefix_fits wide len)]
    refine ⟨_, rfl, fun v decoded => ?_⟩
    split at decoded
    · cases decoded
    · cases decoded; exact wellFormed_string string (by simp; omega)
  by_cases g : signature = "g"
  · subst g
    rw [from_data_g]
    match data with
    | [] => exact ⟨_, by rw [copy_signature_nil]; rfl, fun _ decoded => by cases decoded⟩
    | len :: rest =>
      rw [copy_signature_eq (by omega) len rest]
      refine ⟨_, rfl, fun v decoded => ?_⟩
      split at decoded
      · cases decoded
      · cases decoded; exact wellFormed_signature (by simp)
  · exact ⟨_, from_data_unsupported ⟨u, fun s => string (.inl s), fun o => string (.inr o), g⟩ target data,
      fun _ decoded => by cases decoded⟩

theorem reachable_wellFormed {target : Target} (wide : 33 ≤ target.width) {v : Variant}
    (reachable : Reachable target v) : WellFormed v := by
  cases reachable with
  | from_data decoded =>
    obtain ⟨r, returned, wellFormed⟩ := from_data_wellFormed wide _ _
    exact wellFormed _ (Except.ok.inj (returned.symm.trans decoded))
  | from_string s => exact wellFormed_string (.inl rfl) (by rw [encode_string_length]; omega)
  | from_object_path s => exact wellFormed_string (.inr rfl) (by rw [encode_string_length]; omega)
  | from_signature_string s => exact wellFormed_signature (by simp [encode_signature])
  | from_u32 x => exact wellFormed_u32 (to_ne_bytes_length target x)

/-- `get_string` indexes inside every well-formed variant. -/
theorem get_string_wellFormed {v : Variant} (wellFormed : WellFormed v) : ∃ r, v.get_string = .ok r := by
  by_cases string : v.signature = "s" ∨ v.signature = "o"
  · rw [Variant.get_string, string_start, if_pos string]
    dsimp only
    exact ⟨_, by rw [index_from_of_le (wellFormed.string string)]; rfl⟩
  by_cases g : v.signature = "g"
  · rw [Variant.get_string, string_start, if_neg string, if_pos g]
    dsimp only
    exact ⟨_, by rw [index_from_of_le (wellFormed.signature g)]; rfl⟩
  · rw [Variant.get_string, string_start, if_neg string, if_neg g]
    exact ⟨_, rfl⟩

/-- `get_u32` checks the length before it reads, on every variant. -/
theorem get_u32_total (target : Target) (v : Variant) : ∃ r, v.get_u32 target = .ok r := by
  unfold Variant.get_u32
  split
  · exact ⟨_, rfl⟩
  · obtain ⟨x, read⟩ := @read_u32_of_length target v.value (by omega)
    exact ⟨_, by rw [read]; rfl⟩

/-- On a target whose `usize` is wider than 32 bits every reachable variant is well formed, and none
makes an accessor panic. -/
theorem reachable_no_panic {target : Target} (wide : 33 ≤ target.width) {v : Variant}
    (reachable : Reachable target v) :
    WellFormed v ∧ (∃ r, v.get_string = .ok r) ∧ ∃ r, v.get_u32 target = .ok r :=
  have wellFormed := reachable_wellFormed wide reachable
  ⟨wellFormed, get_string_wellFormed wellFormed, get_u32_total target v⟩

theorem from_data_no_panic_x86_64 :
    33 ≤ (Target.x86_64 true).width ∧
      (WellFormed ⟨"s", [0, 0, 0, 0, 0]⟩ ∧ (∃ r, (⟨"s", [0, 0, 0, 0, 0]⟩ : Variant).get_string = .ok r) ∧
        ∃ r, (⟨"s", [0, 0, 0, 0, 0]⟩ : Variant).get_u32 (Target.x86_64 true) = .ok r) :=
  ⟨by decide, reachable_no_panic (by decide) (@Reachable.from_data _ [0, 0, 0, 0, 0] "s" _ (by decide))⟩

/-- On a 32-bit target the prefix `FFFFFFFB` makes `read_u32(data) as usize + 5` overflow: a
debug build panics there, a release build wraps to an empty value that `get_string` then
slices past. -/
theorem from_data_overflow_i686 :
    Variant.from_data (Target.i686 true) [0xFB, 0xFF, 0xFF, 0xFF] "s" = .error .ArithmeticOverflow ∧
    Variant.from_data (Target.i686 false) [0xFB, 0xFF, 0xFF, 0xFF] "s" = .ok (.ok ⟨"s", []⟩) ∧
    (⟨"s", []⟩ : Variant).get_string = .error .IndexOutOfBounds := by decide

/-! ### Accepted buffers -/

/-- `from_data` accepts a `g` buffer without the terminator that `encode_signature` writes. -/
theorem from_data_unterminated_signature :
    Variant.from_data (Target.x86_64 true) [0] "g" = .ok (.ok ⟨"g", [0]⟩) := by decide

theorem nine_le_width (target : Target) : 9 ≤ target.width := by
  rcases target.width_valid with width | width | width <;> omega

/-- What `from_data` makes of an encoded signature string: the length byte and `len as u8` bytes
after it, one byte fewer than `encode_signature` wrote. -/
theorem from_data_encode_signature (target : Target) (s : Str) :
    Variant.from_data target (encode_signature s) "g" = .ok (.ok ⟨"g", (encode_signature s).take (s.len % 256 + 1)⟩) := by
  have len : (UInt8.ofNat s.len).toNat = s.len % 256 := UInt8.toNat_ofNat' s.len
  have long : ¬ (s.bytes ++ [0]).length < s.len % 256 := by
    simp only [List.length_append, List.length_singleton, Str.len]; omega
  rw [from_data_g, encode_signature, List.singleton_append, List.cons_append, copy_signature_eq (nine_le_width target),
    len, if_neg long]
  rfl

/-- The `g` round trip fails on every target for every string whose buffer
`Vec::with_capacity(2 + len)` can allocate: `from_data` keeps the prefix above, which is never the
whole encoding. -/
theorem from_data_signature_string (target : Target) (s : Str) : 2 + s.len ≤ target.isizeMax →
    Variant.from_data target (Variant.from_signature_string s).get_bytes (Variant.from_signature_string s).get_signature =
        .ok (.ok ⟨"g", (encode_signature s).take (s.len % 256 + 1)⟩) ∧
      Variant.from_data target (Variant.from_signature_string s).get_bytes (Variant.from_signature_string s).get_signature ≠
        .ok (.ok (Variant.from_signature_string s)) := by
  intro _
  have decoded := from_data_encode_signature target s
  refine ⟨decoded, fun same => ?_⟩
  have taken : (encode_signature s).take (s.len % 256 + 1) = encode_signature s :=
    congrArg Variant.value (Except.ok.inj (Except.ok.inj (decoded.symm.trans same)))
  have lengths := congrArg List.length taken
  simp only [List.length_take, encode_signature, List.length_append, List.length_singleton, Str.len] at lengths
  omega

theorem from_data_signature_string_as :
    2 + (Str.ofString "as").len ≤ (Target.x86_64 true).isizeMax ∧
      Variant.from_data (Target.x86_64 true) (Variant.from_signature_string "as").get_bytes
          (Variant.from_signature_string "as").get_signature =
        .ok (.ok ⟨"g", (encode_signature "as").take ((Str.ofString "as").len % 256 + 1)⟩) ∧
      Variant.from_data (Target.x86_64 true) (Variant.from_signature_string "as").get_bytes
          (Variant.from_signature_string "as").get_signature ≠ .ok (.ok (Variant.from_signature_string "as")) :=
  ⟨by decide, from_data_signature_string (Target.x86_64 true) "as" (by decide)⟩

/-! ### A value at the start of a longer buffer -/

theorem read_u32_append {target : Target} {data : List UInt8} (long : 4 ≤ data.length) (extra : List UInt8) :
    target.read_u32 (data ++ extra) = target.read_u32 data := by
  match data, long with
  | _ :: _ :: _ :: _ :: _, _ => rfl

theorem read_u32_take {target : Target} (data : List UInt8) {n : Nat} (long : 4 ≤ n) :
    target.read_u32 (data.take n) = target.read_u32 data := by
  obtain ⟨k, rfl⟩ := Nat.exists_eq_add_of_le' long
  match data with
  | _ :: _ :: _ :: _ :: _ => rfl
  | [] | [_] | [_, _] | [_, _, _] => rfl

/-- `copy_string` on every target: the addition may panic or wrap. -/
theorem copy_string_of_read {target : Target} {data : List UInt8} {len : UInt32}
    (read : target.read_u32 data = .ok len) :
    copy_string target data = (target.addUsize (target.asUsize len.toNat) 5 >>= fun last =>
      .ok (if data.length < last then .error .InsufficientData else .ok (data.take last))) := by
  have long : ¬ data.length < 4 := by
    match data, read with
    | _ :: _ :: _ :: _ :: _, _ => simp
  simp only [copy_string, long, if_false, read, pure_bind, ok_bind]
  cases target.addUsize (target.asUsize len.toNat) 5 with
  | error e => rfl
  | ok last =>
    simp only [ok_bind]
    split
    · rfl
    · rw [index_range_zero (by omega)]; rfl

/-- With overflow checks, or with a `usize` wider than 32 bits, `read_u32(data) as usize + 5` is
the length plus five. -/
theorem addUsize_prefix {target : Target} (noWrap : target.overflowChecks = true ∨ 33 ≤ target.width)
    {len : UInt32} {last : Nat} (added : target.addUsize (target.asUsize len.toNat) 5 = .ok last) :
    last = target.asUsize len.toNat + 5 := by
  unfold Target.addUsize at added
  split at added
  · exact (Except.ok.inj added).symm
  · rcases noWrap with checked | wide
    · rw [if_pos checked] at added; cases added
    · have fits := prefix_fits wide len
      rw [Target.asUsize_of_lt (by omega)] at *
      exact absurd fits ‹_›

/-- Everything a successful `from_data` says about the buffer and the value. -/
theorem from_data_eq_ok {target : Target} {data : List UInt8} {signature : Str} {v : Variant}
    (decoded : Variant.from_data target data signature = .ok (.ok v)) :
    v.signature = signature ∧
      ((signature = "u" ∧ 4 ≤ data.length ∧ v.value = data.take 4) ∨
      ((signature = "s" ∨ signature = "o") ∧ ∃ len last, target.read_u32 data = .ok len ∧
        target.addUsize (target.asUsize len.toNat) 5 = .ok last ∧ last ≤ data.length ∧ v.value = data.take last) ∨
      (signature = "g" ∧ ∃ b rest, data = b :: rest ∧ b.toNat ≤ rest.length ∧ v.value = data.take (b.toNat + 1))) := by
  by_cases u : signature = "u"
  · subst u
    rw [from_data_u] at decoded
    split at decoded
    · cases decoded
    · cases decoded; exact ⟨rfl, .inl ⟨rfl, by omega, rfl⟩⟩
  by_cases string : signature = "s" ∨ signature = "o"
  · rw [from_data_string string] at decoded
    by_cases short : data.length < 4
    · rw [copy_string_short short] at decoded; cases decoded
    obtain ⟨len, read⟩ := @read_u32_of_length target data (by omega)
    rw [copy_string_of_read read] at decoded
    cases added : target.addUsize (target.asUsize len.toNat) 5 with
    | error e => rw [added] at decoded; cases decoded
    | ok last =>
      rw [added, ok_bind] at decoded
      split at decoded
      · cases decoded
      · cases decoded; exact ⟨rfl, .inr (.inl ⟨string, len, last, read, added, by omega, rfl⟩)⟩
  by_cases g : signature = "g"
  · subst g
    rw [from_data_g] at decoded
    match data with
    | [] => rw [copy_signature_nil] at decoded; cases decoded
    | b :: rest =>
      rw [copy_signature_eq (nine_le_width target) b rest] at decoded
      split at decoded
      · cases decoded
      · cases decoded; exact ⟨rfl, .inr (.inr ⟨rfl, b, rest, rfl, by omega, rfl⟩)⟩
  · rw [from_data_unsupported ⟨u, fun s => string (.inl s), fun o => string (.inr o), g⟩] at decoded
    cases decoded

theorem copy_string_append {target : Target} {data : List UInt8}
    (enough : copy_string target data ≠ .ok (.error .InsufficientData)) (extra : List UInt8) :
    copy_string target (data ++ extra) = copy_string target data := by
  by_cases short : data.length < 4
  · exact absurd (copy_string_short short) enough
  obtain ⟨len, read⟩ := @read_u32_of_length target data (by omega)
  rw [copy_string_of_read read] at enough ⊢
  rw [copy_string_of_read (by rw [read_u32_append (by omega), read])]
  cases added : target.addUsize (target.asUsize len.toNat) 5 with
  | error e => rfl
  | ok last =>
    simp only [added, ok_bind] at enough ⊢
    have long : ¬ data.length < last := fun short => enough (by rw [if_pos short])
    rw [if_neg long, if_neg (by rw [List.length_append]; omega), List.take_append_of_le_length (by omega)]

/-- A decoded value is a prefix of the buffer, and bytes after a buffer change what `from_data`
makes of it, a panic included, only when it reported too little data. -/
theorem from_data_append (target : Target) (data extra : List UInt8) (signature : Str) :
    (∀ v, Variant.from_data target data signature = .ok (.ok v) → v.value <+: data) ∧
    (Variant.from_data target data signature ≠ .ok (.error .InsufficientData) →
      Variant.from_data target (data ++ extra) signature = Variant.from_data target data signature) := by
  refine ⟨fun v decoded => ?_, fun enough => ?_⟩
  · obtain ⟨-, ⟨-, -, taken⟩ | ⟨-, _, _, -, -, -, taken⟩ | ⟨-, _, _, -, -, taken⟩⟩ := from_data_eq_ok decoded <;>
      exact taken ▸ List.take_prefix _ _
  by_cases u : signature = "u"
  · subst u
    have long : ¬ data.length < 4 := fun short => enough (by rw [from_data_u, if_pos short])
    rw [from_data_u, from_data_u, if_neg long, if_neg (by rw [List.length_append]; omega),
      List.take_append_of_le_length (by omega)]
  by_cases string : signature = "s" ∨ signature = "o"
  · have copied : copy_string target data ≠ .ok (.error .InsufficientData) :=
      fun short => enough (by rw [from_data_string string, short]; rfl)
    rw [from_data_string string, from_data_string string, copy_string_append copied]
  by_cases g : signature = "g"
  · subst g
    match data with
    | [] => exact absurd (by rw [from_data_g, copy_signature_nil]; rfl) enough
    | b :: rest =>
      have long : ¬ rest.length < b.toNat := fun short =>
        enough (by rw [from_data_g, copy_signature_eq (nine_le_width target), if_pos short]; rfl)
      rw [from_data_g, from_data_g, List.cons_append, copy_signature_eq (nine_le_width target),
        copy_signature_eq (nine_le_width target), if_neg (by rw [List.length_append]; omega), if_neg long,
        ← List.cons_append, List.take_append_of_le_length (by simp; omega)]
  · rw [from_data_unsupported ⟨u, fun s => string (.inl s), fun o => string (.inr o), g⟩,
      from_data_unsupported ⟨u, fun s => string (.inl s), fun o => string (.inr o), g⟩]

/-- Where `read_u32(data) as usize + 5` cannot wrap, a decoded value followed by any bytes decodes
to that value again: `from_data` is a reader for values laid end to end. -/
theorem from_data_value_append {target : Target} (noWrap : target.overflowChecks = true ∨ 33 ≤ target.width)
    {data : List UInt8} {signature : Str} {v : Variant} (decoded : Variant.from_data target data signature = .ok (.ok v))
    (extra : List UInt8) : Variant.from_data target (v.value ++ extra) signature = .ok (.ok v) := by
  have again : Variant.from_data target v.value signature = .ok (.ok v) := by
    obtain ⟨⟨sig, value⟩, rfl⟩ : ∃ w, w = v := ⟨v, rfl⟩
    obtain ⟨same, ⟨rfl, long, taken⟩ | ⟨string, len, last, read, added, inside, taken⟩ |
      ⟨rfl, b, rest, rfl, inside, taken⟩⟩ := from_data_eq_ok decoded <;>
      dsimp only at same taken ⊢ <;> subst same taken
    · rw [from_data_u, if_neg (by simp; omega), List.take_take, min_self]
    · have five := addUsize_prefix noWrap added
      rw [from_data_string string, copy_string_of_read (by rw [read_u32_take data (by omega), read]), added,
        ok_bind, if_neg (by simp; omega), List.take_take, min_self]
      rfl
    · rw [List.take_succ_cons, from_data_g, copy_signature_eq (nine_le_width target), if_neg (by simp; omega),
        List.take_succ_cons, List.take_take, min_self]
      rfl
  have enough : Variant.from_data target v.value signature ≠ .ok (.error .InsufficientData) := by
    rw [again]; nofun
  rw [(from_data_append target v.value extra signature).2 enough, again]

/-- On a 32-bit release build the prefix `FFFFFFFD` wraps `len + 5` to two bytes, which do not
decode again. -/
example : Variant.from_data (Target.i686 false) [0xFD, 0xFF, 0xFF, 0xFF] "s" = .ok (.ok ⟨"s", [0xFD, 0xFF]⟩) ∧
    Variant.from_data (Target.i686 false) [0xFD, 0xFF] "s" = .ok (.error .InsufficientData) := by decide

theorem from_data_value_append_x86_64 :
    ((Target.x86_64 false).overflowChecks = true ∨ 33 ≤ (Target.x86_64 false).width) ∧
      Variant.from_data (Target.x86_64 false) (Variant.get_bytes ⟨"s", [2, 0, 0, 0, 111, 107, 0]⟩ ++ [0xFF]) "s" =
        .ok (.ok ⟨"s", [2, 0, 0, 0, 111, 107, 0]⟩) :=
  ⟨.inr (by decide), @from_data_value_append _ (.inr (by decide)) [2, 0, 0, 0, 111, 107, 0, 7] _ _ (by decide) [0xFF]⟩

end Zbus.VariantCodec
