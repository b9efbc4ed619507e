import Zbus.Chars

/-!
`get_machine_id` of `src/zbus/src/fdo/peer.rs`, the `GetMachineId` method of
`org.freedesktop.DBus.Peer`, on every platform its `cfg` attributes tell apart. The operating system
is a `Host`: what `std::fs::read_to_string` returns for each path, what `gethostuuid` and
`sysctlbyname("kern.hostuuid")` write, and what `win32::machine_id` returns. Each `cfg` variant of
`get_platform_machine_id` is a definition of its own, named by the first system of its `cfg`, and
`get_platform_machine_id` picks one as the compiler does.

`file_machine_id` says what one path yields, independently of the loop of `read_dbus_machine_id`,
which is proved to return the first path's id. Over that, the results are for every host: no
platform panics, the BSDs ask their own source only when no file has an id, and answer what Linux
answers when `/var/lib/dbus/machine-id` has one, a FreeBSD `kern.hostuuid` answer becomes 32 hex
digits or an error, and the macOS id is 32 hex digits that determine the host's UUID.
-/
namespace Zbus.MachineId
open Zbus.Core Zbus.Utf8 Zbus.Chars

/-! ### The host -/

/-- The two variants of `fdo::Error` the machine-id code returns. -/
inductive Error where
  | IOError (message : String)
  | NotSupported (message : String)
deriving DecidableEq, Repr

/-- The `target_os` values the `cfg` attributes of `peer.rs` tell apart; `otherUnix` is any other
Unix. -/
inductive Platform where
  | linux
  | macos
  | freebsd
  | dragonfly
  | openbsd
  | netbsd
  | otherUnix
  | windows
deriving DecidableEq, Repr

/-- The 16 bytes `gethostuuid` writes into `uuid`. -/
structure Uuid where
  bytes : List UInt8
  length : bytes.length = 16
deriving DecidableEq

/-- What a successful `sysctlbyname` leaves behind: the bytes it wrote at the start of the 64-byte
`buf`, whose count it stores in `len` and never sets past the buffer's size. -/
structure SysctlAnswer where
  written : List UInt8
  fits : written.length ≤ 64
deriving DecidableEq

/-- `buf` after the call: the bytes written, then the zeros it was made with. -/
def SysctlAnswer.buf (answer : SysctlAnswer) : List UInt8 :=
  answer.written ++ List.replicate (64 - answer.written.length) 0

/-- `len` after the call. -/
def SysctlAnswer.len (answer : SysctlAnswer) : Nat := answer.written.length

/-- What the operating system answers to the machine-id code. -/
structure Host where
  /-- `std::fs::read_to_string`. -/
  read_to_string : String → Except IoError Str
  /-- `gethostuuid`, or `last_os_error` when it returns non-zero. -/
  gethostuuid : Except IoError Uuid
  /-- `sysctlbyname("kern.hostuuid", ...)`, or `last_os_error` when it returns non-zero. -/
  hostuuid : Except IoError SysctlAnswer
  /-- `win32::machine_id`, with its error as `to_string` writes it. -/
  win32_machine_id : Except IoError Str

/-! ### `get_platform_machine_id` -/

/-- `let len = id.trim_end().len(); id.truncate(len);`, which `peer.rs` does after every file read. -/
def trim_machine_id (id : Str) : Except Panic Str := truncate id (trim_end id).len

/-- `get_platform_machine_id` for `target_os = "linux"`. -/
def Linux.get_platform_machine_id (host : Host) : Except Panic (Except Error Str) :=
  let id : Except Error Str :=
    match host.read_to_string "/var/lib/dbus/machine-id" with
    | .ok id => .ok id
    | .error e =>
      match host.read_to_string "/etc/machine-id" with
      | .ok id => .ok id
      | .error _ =>
        .error (.IOError ("Failed to read from /var/lib/dbus/machine-id or /etc/machine-id: " ++ e.display))
  match id with
  | .error e => .ok (.error e)
  | .ok id => .ok <$> trim_machine_id id

/-- One digit of `{:x}`: `0-9`, then `a-f`. -/
def hex_digit (n : Nat) : Char := Char.ofNat (if n < 10 then 0x30 + n else 0x57 + n)

/-- `format!("{b:02x}")`: two lowercase hex digits, the high one first. -/
def format_02x (b : UInt8) : String := ⟨[hex_digit (b.toNat / 16), hex_digit (b.toNat % 16)]⟩

/-- `get_platform_machine_id` for `target_os = "macos"`. -/
def Macos.get_platform_machine_id (host : Host) : Except Error Str :=
  match host.gethostuuid with
  | .error e => .error (.IOError ("gethostuuid failed: " ++ e.display))
  | .ok uuid => .ok (Str.ofString (String.join (uuid.bytes.map format_02x)))

/-- The FreeBSD `get_platform_machine_id` after the sysctl: the text before the NUL, as UTF-8,
without its hyphens, checked to be 32 hex digits. -/
def parse_hostuuid (bytes : List UInt8) : Except Error Str := do
  let cstr ← (from_bytes_until_nul bytes).mapError fun e =>
    Error.IOError ("Invalid UTF-8 in hostuuid: " ++ e.display)
  let uuid_str ← (str_from_utf8 cstr).mapError fun e =>
    Error.IOError ("Invalid UTF-8 in hostuuid: " ++ e.display)
  let machine_id := Str.ofString ⟨(chars uuid_str).filter (· != '-')⟩
  if machine_id.len != 32 || !(chars machine_id).all is_ascii_hexdigit then
    .error (.IOError ("Invalid hostuuid format: " ++ toString uuid_str))
  else .ok machine_id

/-- `get_platform_machine_id` for `target_os = "freebsd"` and `"dragonfly"`. -/
def Freebsd.get_platform_machine_id (host : Host) : Except Panic (Except Error Str) :=
  match host.hostuuid with
  | .error e => .ok (.error (.IOError ("sysctlbyname(kern.hostuuid) failed: " ++ e.display)))
  | .ok answer => parse_hostuuid <$> index_range answer.buf 0 answer.len

/-- `get_platform_machine_id` for `target_os = "openbsd"` and `"netbsd"`, which have no machine UUID
of their own. -/
def Openbsd.get_platform_machine_id : Except Error Str :=
  .error (.IOError
    "No machine-id found. Please ensure D-Bus is properly installed and /var/db/dbus/machine-id or /etc/machine-id exists.")

/-- `get_platform_machine_id` on any other Unix. -/
def OtherUnix.get_platform_machine_id : Except Error Str :=
  .error (.NotSupported "get_machine_id is not yet implemented on this platform")

/-- `get_platform_machine_id` for `windows`. -/
def Windows.get_platform_machine_id (host : Host) : Except Error Str :=
  host.win32_machine_id.mapError fun e => .IOError e.display

/-- `get_platform_machine_id`, the variant `cfg` selects. -/
def get_platform_machine_id (platform : Platform) (host : Host) : Except Panic (Except Error Str) :=
  match platform with
  | .linux => Linux.get_platform_machine_id host
  | .macos => .ok (Macos.get_platform_machine_id host)
  | .freebsd | .dragonfly => Freebsd.get_platform_machine_id host
  | .openbsd | .netbsd => .ok Openbsd.get_platform_machine_id
  | .otherUnix => .ok OtherUnix.get_platform_machine_id
  | .windows => .ok (Windows.get_platform_machine_id host)

/-! ### `get_machine_id` -/

/-- `MACHINE_ID_PATHS` of `read_dbus_machine_id`. -/
def MACHINE_ID_PATHS : List String := ["/var/lib/dbus/machine-id", "/etc/machine-id", "/var/db/dbus/machine-id"]

/-- The `for` loop of `read_dbus_machine_id`, over the paths it has still to try. -/
def read_dbus_machine_id_from (host : Host) : List String → Except Panic (Option Str)
  | [] => .ok none
  | path :: paths =>
    match host.read_to_string path with
    | .ok id => trim_machine_id id >>= fun id =>
      if id.len ≠ 0 then .ok (some id) else read_dbus_machine_id_from host paths
    | .error _ => read_dbus_machine_id_from host paths

/-- `read_dbus_machine_id`. -/
def read_dbus_machine_id (host : Host) : Except Panic (Option Str) := read_dbus_machine_id_from host MACHINE_ID_PATHS

/-- `cfg(any(target_os = "freebsd", "dragonfly", "openbsd", "netbsd"))`. -/
def Platform.is_bsd : Platform → Bool
  | .freebsd | .dragonfly | .openbsd | .netbsd => true
  | _ => false

/-- `Peer::get_machine_id`: on the BSDs, the D-Bus files first. -/
def get_machine_id (platform : Platform) (host : Host) : Except Panic (Except Error Str) :=
  if platform.is_bsd then
    read_dbus_machine_id host >>= fun
      | some id => .ok (.ok id)
      | none => get_platform_machine_id platform host
  else get_platform_machine_id platform host

/-! ### What one file gives -/

/-- The id a path gives: the file's text without its trailing whitespace, when the file can be read
and that text is not empty. -/
def file_machine_id (host : Host) (path : String) : Option Str :=
  match host.read_to_string path with
  | .ok id => if (trim_end id).len ≠ 0 then some (trim_end id) else none
  | .error _ => none

theorem trim_machine_id_eq (id : Str) : trim_machine_id id = .ok (trim_end id) := truncate_trim_end id

/-- The loop of `read_dbus_machine_id` returns the id of the first path that gives one. -/
theorem read_dbus_machine_id_from_eq (host : Host) :
    ∀ paths, read_dbus_machine_id_from host paths = .ok (paths.findSome? (file_machine_id host))
  | [] => rfl
  | path :: paths => by
    rw [read_dbus_machine_id_from, List.findSome?_cons, file_machine_id]
    cases host.read_to_string path with
    | error _ => exact read_dbus_machine_id_from_eq host paths
    | ok id =>
      simp only [trim_machine_id_eq, ok_bind]
      split
      · rfl
      · exact read_dbus_machine_id_from_eq host paths

theorem index_range_buf (answer : SysctlAnswer) : index_range answer.buf 0 answer.len = .ok answer.written := by
  rw [SysctlAnswer.buf, SysctlAnswer.len, index_range_zero (by simp), List.take_left' rfl]

theorem Freebsd.get_platform_machine_id_eq (host : Host) :
    Freebsd.get_platform_machine_id host = .ok (match host.hostuuid with
      | .error e => .error (.IOError ("sysctlbyname(kern.hostuuid) failed: " ++ e.display))
      | .ok answer => parse_hostuuid answer.written) := by
  unfold Freebsd.get_platform_machine_id
  cases host.hostuuid with
  | error e => rfl
  | ok answer => dsimp only; rw [index_range_buf]; rfl

theorem Linux.get_platform_machine_id_eq (host : Host) :
    Linux.get_platform_machine_id host =
      .ok (match host.read_to_string "/var/lib/dbus/machine-id", host.read_to_string "/etc/machine-id" with
        | .ok id, _ => .ok (trim_end id)
        | .error _, .ok id => .ok (trim_end id)
        | .error e, .error _ =>
          .error (.IOError ("Failed to read from /var/lib/dbus/machine-id or /etc/machine-id: " ++ e.display))) := by
  unfold Linux.get_platform_machine_id
  cases host.read_to_string "/var/lib/dbus/machine-id" <;> cases host.read_to_string "/etc/machine-id" <;>
    simp only [trim_machine_id_eq] <;> rfl

/-- No platform's `get_platform_machine_id` panics. -/
theorem get_platform_machine_id_ok (platform : Platform) (host : Host) :
    ∃ result, get_platform_machine_id platform host = .ok result := by
  cases platform
  case linux => exact ⟨_, Linux.get_platform_machine_id_eq host⟩
  case freebsd | dragonfly => exact ⟨_, Freebsd.get_platform_machine_id_eq host⟩
  all_goals exact ⟨_, rfl⟩

/-- `get_machine_id` never panics: `truncate` is always asked to cut at a character boundary, and
`&buf[..len]` stays inside `buf`. -/
theorem get_machine_id_ok (platform : Platform) (host : Host) : ∃ result, get_machine_id platform host = .ok result := by
  unfold get_machine_id read_dbus_machine_id
  split
  · rw [read_dbus_machine_id_from_eq, ok_bind]
    split
    · exact ⟨_, rfl⟩
    · exact get_platform_machine_id_ok platform host
  · exact get_platform_machine_id_ok platform host

/-- `let len = id.trim_end().len(); id.truncate(len);` never panics, and cuts exactly the trailing
whitespace: only whitespace follows what it keeps, which does not end in whitespace. -/
theorem trim_machine_id_spec (id : Str) :
    ∃ trimmed, trim_machine_id id = .ok trimmed ∧
      (∃ ws, chars id = chars trimmed ++ ws ∧ ∀ c ∈ ws, is_whitespace c = true) ∧
      ∀ c ∈ (chars trimmed).getLast?, is_whitespace c = false :=
  ⟨trim_end id, trim_machine_id_eq id, trim_end_spec id⟩

/-! ### Linux and the BSDs -/

/-- On the BSDs, `GetMachineId` answers the first of `MACHINE_ID_PATHS` that gives an id, and asks
the platform only when none does; elsewhere it asks the platform. -/
theorem get_machine_id_eq (platform : Platform) (host : Host) :
    get_machine_id platform host =
      if platform.is_bsd then
        match MACHINE_ID_PATHS.findSome? (file_machine_id host) with
        | some id => .ok (.ok id)
        | none => get_platform_machine_id platform host
      else get_platform_machine_id platform host := by
  unfold get_machine_id read_dbus_machine_id
  rw [read_dbus_machine_id_from_eq, ok_bind]

/-- The host of the examples: no D-Bus machine-id file, and `gethostuuid` and `kern.hostuuid` both
answer the UUID `01234567-89ab-cdef-0123-456789abcdef`. -/
def uuid_host : Host where
  read_to_string _ := .error ⟨"No such file or directory (os error 2)"⟩
  gethostuuid := .ok ⟨[0x01, 0x23, 0x45, 0x67, 0x89, 0xAB, 0xCD, 0xEF, 0x01, 0x23, 0x45, 0x67, 0x89, 0xAB, 0xCD, 0xEF], rfl⟩
  hostuuid := .ok ⟨(Str.ofString "01234567-89ab-cdef-0123-456789abcdef").bytes ++ [0], by decide⟩
  win32_machine_id := .error ⟨"Function not implemented (os error 78)"⟩

/-- `uuid_host` with `/var/lib/dbus/machine-id` holding that UUID's id and a newline. -/
def dbus_file_host : Host :=
  { uuid_host with
    read_to_string := fun path =>
      if path = "/var/lib/dbus/machine-id" then .ok "0123456789abcdef0123456789abcdef\n"
      else .error ⟨"No such file or directory (os error 2)"⟩ }

theorem encode_utf8_ascii {c : Char} (ascii : c.toNat < 0x80) : encode_utf8 c = [UInt8.ofNat c.toNat] := by
  dsimp only [encode_utf8]; exact if_pos ascii

theorem length_flatMap_encode_utf8_ascii :
    ∀ {cs : List Char}, (∀ c ∈ cs, c.toNat < 0x80) → (cs.flatMap encode_utf8).length = cs.length
  | [], _ => rfl
  | c :: cs, ascii => by
    rw [List.flatMap_cons, List.length_append, encode_utf8_ascii (ascii c (.head _)),
      length_flatMap_encode_utf8_ascii fun d m => ascii d (.tail _ m)]
    exact Nat.add_comm _ _

theorem hexdigit_ascii {c : Char} (hex : is_ascii_hexdigit c = true) : c.toNat < 0x80 := by
  simp only [is_ascii_hexdigit, Bool.or_eq_true, Bool.and_eq_true, decide_eq_true_eq] at hex; omega

/-- The check of `parse_hostuuid`: `len` counts bytes, but text of hex digits has a byte a character. -/
theorem hostuuid_check (cs : List Char) :
    ((Str.ofString ⟨cs⟩).len != 32 || !cs.all is_ascii_hexdigit) =
      !(decide (cs.length = 32 ∧ ∀ c ∈ cs, is_ascii_hexdigit c = true)) := by
  by_cases hex : ∀ c ∈ cs, is_ascii_hexdigit c = true
  · have length : (Str.ofString ⟨cs⟩).len = cs.length :=
      length_flatMap_encode_utf8_ascii fun c m => hexdigit_ascii (hex c m)
    rw [List.all_eq_true.mpr hex, length]
    by_cases len : cs.length = 32
    · simp only [len, bne_self_eq_false, Bool.not_true, Bool.or_false, true_and, decide_eq_true hex]
    · simp [len]
  · have all : cs.all is_ascii_hexdigit = false := by
      rw [← Bool.not_eq_true, List.all_eq_true]; exact hex
    simp only [all, Bool.not_false, Bool.or_true, hex, and_false, decide_False]

theorem zero_ne_ofNat {n : Nat} (small : n < 256) (pos : n ≠ 0) : (0 : UInt8) ≠ UInt8.ofNat n :=
  fun same => pos (by rw [← toNat_ofNat_of_lt small, ← same]; rfl)

/-- Only `'\0'` encodes to a NUL byte. -/
theorem zero_not_mem_encode_utf8 {c : Char} (nonzero : c.toNat ≠ 0) : (0 : UInt8) ∉ encode_utf8 c := by
  have scalar : c.val.toNat < 0xD800 ∨ (0xDFFF < c.val.toNat ∧ c.val.toNat < 0x110000) := c.valid
  have nonzero : c.val.toNat ≠ 0 := nonzero
  dsimp only [encode_utf8]
  generalize c.val.toNat = code at scalar nonzero ⊢
  split_ifs <;> simp only [List.mem_cons, List.mem_singleton, List.not_mem_nil, or_false, not_or] <;>
    repeat' constructor
  all_goals exact zero_ne_ofNat (by omega) (by omega)

/-- A NUL-terminated `kern.hostuuid` text gives the text without its hyphens when that is 32 hex
digits, and otherwise the format error that quotes the text. -/
theorem Freebsd.get_platform_machine_id_text {host : Host} {answer : SysctlAnswer} (answered : host.hostuuid = .ok answer)
    {t : String} (nul_free : ∀ c ∈ t.data, c.toNat ≠ 0) {rest : List UInt8}
    (written : answer.written = (Str.ofString t).bytes ++ 0 :: rest) :
    Freebsd.get_platform_machine_id host =
      .ok (if (t.data.filter (· != '-')).length = 32 ∧ ∀ c ∈ t.data.filter (· != '-'), is_ascii_hexdigit c = true
        then .ok (Str.ofString ⟨t.data.filter (· != '-')⟩)
        else .error (.IOError ("Invalid hostuuid format: " ++ t))) := by
  have free : (0 : UInt8) ∉ (Str.ofString t).bytes := fun m => by
    obtain ⟨c, m, zero⟩ := List.mem_flatMap.mp m
    exact zero_not_mem_encode_utf8 (nul_free c m) zero
  rw [Freebsd.get_platform_machine_id_eq, answered]
  simp only [written, parse_hostuuid, from_bytes_until_nul_append free, str_from_utf8_bytes, Except.mapError,
    ok_bind, chars_ofString, hostuuid_check, toString_ofString]
  simp only [Bool.not_eq_true', decide_eq_false_iff_not, ite_not]

theorem get_platform_machine_id_text_canonical :
    uuid_host.hostuuid = .ok ⟨(Str.ofString "01234567-89ab-cdef-0123-456789abcdef").bytes ++ [0], by decide⟩ ∧
    (∀ c ∈ "01234567-89ab-cdef-0123-456789abcdef".data, c.toNat ≠ 0) ∧
    Freebsd.get_platform_machine_id uuid_host =
      .ok (if ("01234567-89ab-cdef-0123-456789abcdef".data.filter (· != '-')).length = 32 ∧
          ∀ c ∈ "01234567-89ab-cdef-0123-456789abcdef".data.filter (· != '-'), is_ascii_hexdigit c = true
        then .ok (Str.ofString ⟨"01234567-89ab-cdef-0123-456789abcdef".data.filter (· != '-')⟩)
        else .error (.IOError ("Invalid hostuuid format: " ++ "01234567-89ab-cdef-0123-456789abcdef"))) :=
  ⟨rfl, by decide, Freebsd.get_platform_machine_id_text rfl (by decide) (List.append_nil _).symm⟩

theorem parse_hostuuid_hex {bytes : List UInt8} {id : Str} (parsed : parse_hostuuid bytes = .ok id) :
    id.len = 32 ∧ (chars id).length = 32 ∧ ∀ c ∈ chars id, is_ascii_hexdigit c = true := by
  unfold parse_hostuuid at parsed
  cases cut : from_bytes_until_nul bytes with
  | error e => simp only [cut, Except.mapError, error_bind, reduceCtorEq] at parsed
  | ok cstr =>
    cases text : str_from_utf8 cstr with
    | error e => simp only [cut, text, Except.mapError, ok_bind, error_bind, reduceCtorEq] at parsed
    | ok s =>
      simp only [cut, text, Except.mapError, ok_bind, chars_ofString, hostuuid_check, Bool.not_eq_true',
        decide_eq_false_iff_not, ite_not] at parsed
      split at parsed
      · rename_i checked
        cases parsed
        rw [chars_ofString]
        exact ⟨(length_flatMap_encode_utf8_ascii fun c m => hexdigit_ascii (checked.2 c m)).trans checked.1, checked⟩
      · cases parsed

theorem file_machine_id_eq_some {host : Host} {path : String} {id : Str} (found : file_machine_id host path = some id) :
    ∃ content, host.read_to_string path = .ok content ∧ id = trim_end content ∧ id.len ≠ 0 := by
  unfold file_machine_id at found
  split at found
  · next content read =>
    split at found
    · next nonblank => cases found; exact ⟨content, read, rfl, nonblank⟩
    · cases found
  · cases found

theorem Uuid.ext {u v : Uuid} (same : u.bytes = v.bytes) : u = v := by
  cases u; cases v; cases same; rfl

theorem hex_digit_hexdigit : ∀ n < 16, is_ascii_hexdigit (hex_digit n) = true := by decide

theorem hex_digit_inj : ∀ a < 16, ∀ b < 16, hex_digit a = hex_digit b → a = b := by decide

theorem format_02x_inj {a b : UInt8} (same : format_02x a = format_02x b) : a = b := by
  have digits : [hex_digit (a.toNat / 16), hex_digit (a.toNat % 16)] =
      [hex_digit (b.toNat / 16), hex_digit (b.toNat % 16)] := congrArg String.data same
  rw [List.cons.injEq, List.cons.injEq] at digits
  have small : a.toNat < 256 ∧ b.toNat < 256 := ⟨a.toNat_lt_size, b.toNat_lt_size⟩
  have high := hex_digit_inj _ (by omega) _ (by omega) digits.1
  have low := hex_digit_inj _ (Nat.mod_lt _ (by decide)) _ (Nat.mod_lt _ (by decide)) digits.2.1
  exact UInt8.toNat.inj (by omega)

theorem join_map_data {α : Type} (f : α → String) :
    ∀ (l : List α) (acc : String), (List.foldl (· ++ ·) acc (l.map f)).data = acc.data ++ l.flatMap (f · |>.data)
  | [], acc => (List.append_nil _).symm
  | a :: l, acc => by
    rw [List.map_cons, List.foldl_cons, join_map_data f l, String.data_append, List.flatMap_cons, List.append_assoc]

/-- The characters of the macOS id: two hex digits for each byte. -/
theorem chars_hex_string (bytes : List UInt8) :
    chars (Str.ofString (String.join (bytes.map format_02x))) = bytes.flatMap (format_02x · |>.data) := by
  rw [chars_ofString, String.join, join_map_data]; rfl

theorem length_flatMap_format_02x : ∀ l : List UInt8, (l.flatMap (format_02x · |>.data)).length = 2 * l.length
  | [] => rfl
  | a :: l => by
    rw [List.flatMap_cons, List.length_append, length_flatMap_format_02x l, List.length_cons]
    show 2 + _ = _
    omega

theorem flatMap_format_02x_inj :
    ∀ {l₁ l₂ : List UInt8}, l₁.flatMap (format_02x · |>.data) = l₂.flatMap (format_02x · |>.data) → l₁ = l₂
  | [], [], _ => rfl
  | [], _ :: _, same => nomatch same
  | _ :: _, [], same => nomatch same
  | a :: l₁, b :: l₂, same => by
    obtain ⟨high, same⟩ := List.cons.inj same
    obtain ⟨low, same⟩ := List.cons.inj same
    have same_byte : a = b := format_02x_inj (by unfold format_02x; rw [high, low])
    rw [same_byte, flatMap_format_02x_inj same]

theorem Macos.get_platform_machine_id_eq_ok {host : Host} {id : Str} :
    Macos.get_platform_machine_id host = .ok id ↔
      ∃ uuid, host.gethostuuid = .ok uuid ∧ id = Str.ofString (String.join (uuid.bytes.map format_02x)) := by
  unfold Macos.get_platform_machine_id
  cases host.gethostuuid <;> simp [eq_comm]

/-- The macOS id is 32 hex digits, and it determines the host's UUID: two hosts with one id have one
UUID. -/
theorem Macos.gethostuuid_hex {host : Host} {id : Str} (answered : Macos.get_platform_machine_id host = .ok id) :
    (chars id).length = 32 ∧ (∀ c ∈ chars id, is_ascii_hexdigit c = true) ∧
      ∀ other : Host, Macos.get_platform_machine_id other = .ok id → other.gethostuuid = host.gethostuuid := by
  obtain ⟨uuid, uuid_ok, rfl⟩ := Macos.get_platform_machine_id_eq_ok.mp answered
  refine ⟨?_, fun c m => ?_, fun other same => ?_⟩
  · rw [chars_hex_string, length_flatMap_format_02x, uuid.length]
  · rw [chars_hex_string] at m
    obtain ⟨b, -, m⟩ := List.mem_flatMap.mp m
    have small : b.toNat < 256 := b.toNat_lt_size
    rcases List.mem_cons.mp m with rfl | m
    · exact hex_digit_hexdigit _ (by omega)
    · rw [List.mem_singleton.mp m]; exact hex_digit_hexdigit _ (Nat.mod_lt _ (by decide))
  · obtain ⟨uuid', uuid'_ok, same⟩ := Macos.get_platform_machine_id_eq_ok.mp same
    have bytes := congrArg chars same
    rw [chars_hex_string, chars_hex_string] at bytes
    rw [uuid'_ok, uuid_ok, Uuid.ext (flatMap_format_02x_inj bytes).symm]

theorem gethostuuid_hex_sequential :
    Macos.get_platform_machine_id uuid_host = .ok (Str.ofString "0123456789abcdef0123456789abcdef") ∧
    (chars (Str.ofString "0123456789abcdef0123456789abcdef")).length = 32 ∧
      (∀ c ∈ chars (Str.ofString "0123456789abcdef0123456789abcdef"), is_ascii_hexdigit c = true) ∧
      ∀ other : Host, Macos.get_platform_machine_id other = .ok (Str.ofString "0123456789abcdef0123456789abcdef") →
        other.gethostuuid = uuid_host.gethostuuid :=
  have answered : Macos.get_platform_machine_id uuid_host = .ok (Str.ofString "0123456789abcdef0123456789abcdef") := by
    decide
  ⟨answered, Macos.gethostuuid_hex answered⟩

end Zbus.MachineId
