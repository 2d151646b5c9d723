import ErplTunnel.Framework.HostPort
import ErplTunnel.Framework.Sql
import ErplTunnel.Shim.Options

/-!
# The addresses that the shims dial

`mesh_dial` prints the address of the service on the mesh with `%s:%d`, and
`StartExport` joins the one of the service on this machine. Whoever dials takes
an address apart with `net.SplitHostPort`: the host and port of an export come
out as they went in unless there are brackets in the host, and those of a dial
only if there is no colon either, so never for an IPv6 address (`dials_iff`).
-/

namespace ErplTunnel.Shim

open String (utf8EncodeChar)
open HostPort (Marks)

/-- `:`, `[` and `]`. -/
def marks : Marks UInt8 := ⟨0x3a, 0x5b, 0x5d, by decide, by decide, by decide⟩

/-- `%d`. -/
def decimal (n : Int32) : GoString := lit (toString n.toInt)

/-- `addr` of `mesh_dial`. -/
def addr (host : String) (port : Int32) : GoString := goString host ++ lit ":" ++ decimal port

/-- The host that `StartExport` dials. -/
def localHost (host : String) : GoString := if goString host = [] then lit "127.0.0.1" else goString host

/-- `localAddr` of `StartExport`. -/
def localAddr (host : String) (port : Int32) : GoString := HostPort.join marks (localHost host) (decimal port)

theorem mem_lit {s : String} {b : UInt8} : b ∈ lit s ↔ ∃ c ∈ s.toList, b ∈ utf8EncodeChar c := by
  have hs : lit s = s.toList.flatMap utf8EncodeChar := by
    show s.toByteArray.data.toList = _
    rw [← String.utf8Encode_toList, List.utf8Encode, List.data_toByteArray]
  rw [hs, List.mem_flatMap]

/-- A mark is in no number. -/
theorem not_mem_decimal (n : Int32) {b : UInt8} (hb : b.toNat < 0x80)
    (hd : (Char.ofUInt8 b).isDigit = false ∧ Char.ofUInt8 b ≠ '-') : b ∉ decimal n := by
  intro h
  obtain ⟨c, hc, hm⟩ := mem_lit.mp h
  obtain rfl := Utf8.eq_ofUInt8_of_mem hm hb
  rw [Sql.toList_toString_int] at hc
  obtain hc | hc := List.mem_append.mp hc
  · split at hc
    · exact hd.2 (List.mem_singleton.mp hc)
    · cases hc
  · rw [Nat.isDigit_of_mem_toDigits (by decide) (by decide) hc] at hd
    cases hd.1

theorem dials_iff (host : String) (port : Int32) :
    (HostPort.split marks (addr host port) = .ok (goString host, decimal port) ↔
      marks.colon ∉ goString host ∧ marks.opening ∉ goString host ∧ marks.closing ∉ goString host) ∧
    (HostPort.split marks (localAddr host port) = .ok (localHost host, decimal port) ↔
      marks.opening ∉ goString host ∧ marks.closing ∉ goString host) := by
  have hc : marks.colon ∉ decimal port := not_mem_decimal port (by decide) (by decide)
  have ho : marks.opening ∉ decimal port := not_mem_decimal port (by decide) (by decide)
  have hcl : marks.closing ∉ decimal port := not_mem_decimal port (by decide) (by decide)
  constructor
  · have ha : addr host port = goString host ++ marks.colon :: decimal port := by
      rw [addr, List.append_assoc]
      rfl
    rw [ha]
    exact HostPort.split_plain_iff hc ho hcl
  · rw [localAddr, HostPort.split_join_iff hc ho hcl, localHost]
    split
    case isTrue h =>
      rw [h]
      decide
    case isFalse => rfl

example : HostPort.split marks (addr "::1" 80) = .error .tooManyColons := by decide

end ErplTunnel.Shim
