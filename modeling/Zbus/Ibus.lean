import Zbus.Chars

/-!
`Ibus::bus_address` of `src/zbus/src/address/transport/ibus.rs`: run `ibus address`, check that the
command exited successfully, read what it printed as UTF-8, and parse that, trimmed, as an address.
The process runner answers with the command's `Output` or the error of starting it.
`Address::from_str` and the `Error::Address` variant are not in `src/`: they are parameters, so
every result holds for every address parser. The main result is that whitespace around the text the
command prints never changes the answer.
-/
namespace Zbus.Ibus
open Zbus.Core Zbus.Utf8 Zbus.Chars

/-- `std::process::ExitStatus`: whether the command succeeded, and what its `Display` writes. -/
structure ExitStatus where
  success : Bool
  display : String
deriving DecidableEq, Repr

/-- `std::process::Output`, with the fields `bus_address` reads. -/
structure Output where
  status : ExitStatus
  stdout : List UInt8
deriving DecidableEq, Repr

theorem throw_eq_error {ε α : Type} (e : ε) : (throw e : Except ε α) = .error e := rfl

section
variable {Address Error : Type} (address_error : String → Error) (from_str : Str → Except Error Address)

/-- `Ibus::bus_address`, given what `run("ibus", ["address"])` returns. -/
def bus_address (run : Except IoError Output) : Except Error Address := do
  let output ← run.mapError fun e => address_error ("Failed to execute ibus command: " ++ e.display)
  if !output.status.success then
    throw (address_error ("ibus terminated with code: " ++ output.status.display))
  let addr ← (str_from_utf8 output.stdout).mapError fun e =>
    address_error ("Unable to parse ibus output as UTF-8: " ++ e.display)
  from_str (trim addr)

/-- What `bus_address` makes of a command that ran and printed `text`. -/
theorem bus_address_printed (status : ExitStatus) (text : Str) :
    bus_address address_error from_str (.ok ⟨status, text.bytes⟩) =
      if status.success then from_str (trim text)
      else .error (address_error ("ibus terminated with code: " ++ status.display)) := by
  unfold bus_address
  cases success : status.success <;> simp [success, Except.mapError, str_from_utf8_bytes, throw_eq_error]

/-- `ibus address` ends what it prints with a newline: whitespace around the printed text never
changes what `bus_address` answers, an address or an error. -/
theorem bus_address_surrounding_whitespace (status : ExitStatus) (text : Str) {lead trail : String}
    (blank : ∀ c ∈ lead.data ++ trail.data, is_whitespace c = true) :
    bus_address address_error from_str (.ok ⟨status, (Str.ofString lead ++ text ++ Str.ofString trail).bytes⟩) =
      bus_address address_error from_str (.ok ⟨status, text.bytes⟩) := by
  rw [bus_address_printed, bus_address_printed, trim_append_whitespace text blank]

end

theorem bus_address_trailing_newline :
    (∀ c ∈ "".data ++ "\n".data, is_whitespace c = true) ∧
      bus_address id (fun address => (.ok address : Except String Str))
          (.ok ⟨⟨true, "exit status: 0"⟩, (Str.ofString "" ++ "unix:path=/tmp/ibus" ++ Str.ofString "\n").bytes⟩) =
        bus_address id (fun address => .ok address) (.ok ⟨⟨true, "exit status: 0"⟩, (Str.ofString "unix:path=/tmp/ibus").bytes⟩) :=
  ⟨by decide, bus_address_surrounding_whitespace id (fun address => .ok address) _ _ (by decide)⟩

end Zbus.Ibus
