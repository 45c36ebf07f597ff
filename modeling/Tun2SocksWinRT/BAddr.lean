import Tun2SocksWinRT.ByteMemory

namespace Tun2SocksWinRT

/-!
# Socket addresses

`system/BAddr.h`: a `BAddr` is an IPv4 or IPv6 address with a port, both kept
as the bytes stored in the structure (network order).  `BAddr_CompareOrder`
orders addresses by type, then by address (as a host-order number for IPv4,
with `memcmp` for IPv6), then by port; it is the comparator of the trees that
index connections by address.  Two addresses compare equal exactly when they
are the same (`compareOrder_eq_eq_iff`), so a tree ordered by it holds at most
one node per address, and it is a total order: it compares the numbers
`orderKey` lists (`compareOrder_eq_compare`).

Only the two types a connection's addresses can have are modelled;
`BADDR_TYPE_NONE` and `BADDR_TYPE_PACKET` are left out.
-/

open ByteMemory

/-- A `BAddr` of type `BADDR_TYPE_IPV4` or `BADDR_TYPE_IPV6`. -/
inductive BAddr
  | ipv4 (ip : Vector UInt8 4) (port : Vector UInt8 2)
  | ipv6 (ip : Vector UInt8 16) (port : Vector UInt8 2)
  deriving DecidableEq, Repr, Inhabited

namespace BAddr

/-- `BADDR_TYPE_IPV4` and `BADDR_TYPE_IPV6`. -/
def type : BAddr → Nat
  | .ipv4 _ _ => 1
  | .ipv6 _ _ => 2

/-- `ntoh32`/`ntoh16`: the number that network-order bytes stand for. -/
def ntoh (bytes : Vector UInt8 width) : Nat :=
  ofLe bytes.toList.reverse

/-- Network-order numbers of one width are equal only for equal bytes. -/
theorem ntoh_inj {first second : Vector UInt8 width} (same : ntoh first = ntoh second) :
    first = second := by
  have reversed : first.toList.reverse = second.toList.reverse :=
    ofLe_inj (by simp) same
  exact Vector.toList_inj.mp (List.reverse_inj.mp reversed)

/--
`BAddr_CompareOrder`: by type, then by address, then by port, each with
`B_COMPARE`.  The match only reaches two addresses of one type.
-/
def compareOrder (addr1 addr2 : BAddr) : Ordering :=
  (compare addr1.type addr2.type).then
    (match addr1, addr2 with
      | .ipv4 ip1 port1, .ipv4 ip2 port2 =>
          (compare (ntoh ip1) (ntoh ip2)).then (compare (ntoh port1) (ntoh port2))
      | .ipv6 ip1 port1, .ipv6 ip2 port2 =>
          (memcmp ip1.toList ip2.toList).then (compare (ntoh port1) (ntoh port2))
      | _, _ =>
          .eq)

/-- Two addresses compare equal exactly when they are the same address. -/
theorem compareOrder_eq_eq_iff (addr1 addr2 : BAddr) :
    compareOrder addr1 addr2 = .eq ↔ addr1 = addr2 := by
  constructor
  · intro equal
    cases addr1 with
    | ipv4 ip1 port1 =>
        cases addr2 with
        | ipv4 ip2 port2 =>
            simp only [compareOrder, type, Ordering.then_eq_eq, compare_eq_iff_eq] at equal
            rw [ntoh_inj equal.2.1, ntoh_inj equal.2.2]
        | ipv6 ip2 port2 =>
            simp [compareOrder, type] at equal
    | ipv6 ip1 port1 =>
        cases addr2 with
        | ipv4 ip2 port2 =>
            simp [compareOrder, type] at equal
        | ipv6 ip2 port2 =>
            simp only [compareOrder, type, Ordering.then_eq_eq, compare_eq_iff_eq] at equal
            rw [Vector.toList_inj.mp ((memcmp_eq_eq_iff (by simp)).mp equal.2.1),
              ntoh_inj equal.2.2]
  · rintro rfl
    cases addr1 with
    | ipv4 ip port =>
        simp [compareOrder]
    | ipv6 ip port =>
        simp [compareOrder, (memcmp_eq_eq_iff rfl).mpr]

instance : Std.LawfulEqCmp compareOrder where
  compare_self := (compareOrder_eq_eq_iff _ _).mpr rfl
  eq_of_compare := (compareOrder_eq_eq_iff _ _).mp

/-- The numbers `BAddr_CompareOrder` compares, in the order it compares them. -/
def orderKey : BAddr → List Nat
  | .ipv4 ip port => [type (.ipv4 ip port), ntoh ip, ntoh port]
  | .ipv6 ip port => type (.ipv6 ip port) :: (ip.toList.map UInt8.toNat ++ [ntoh port])

/-- `BAddr_CompareOrder` is the order of the lists of numbers it compares. -/
theorem compareOrder_eq_compare (addr1 addr2 : BAddr) :
    compareOrder addr1 addr2 = compare (orderKey addr1) (orderKey addr2) := by
  cases addr1 with
  | ipv4 ip1 port1 =>
      cases addr2 with
      | ipv4 ip2 port2 =>
          simp [compareOrder, orderKey, List.compare_cons_cons]
      | ipv6 ip2 port2 =>
          -- the type decides
          simp only [compareOrder, orderKey, type, List.compare_cons_cons]
          rfl
  | ipv6 ip1 port1 =>
      cases addr2 with
      | ipv4 ip2 port2 =>
          simp only [compareOrder, orderKey, type, List.compare_cons_cons]
          rfl
      | ipv6 ip2 port2 =>
          -- sixteen bytes against sixteen, then the ports
          simp only [compareOrder, orderKey, List.compare_cons_cons]
          rw [memcmp_eq_compare (by simp), compare_append (by simp), List.compare_cons_cons]
          simp

instance : Std.TransCmp compareOrder where
  eq_swap {addr1 addr2} := by
    rw [compareOrder_eq_compare, compareOrder_eq_compare]
    exact Std.OrientedCmp.eq_swap
  isLE_trans {addr1 addr2 addr3} := by
    rw [compareOrder_eq_compare, compareOrder_eq_compare, compareOrder_eq_compare]
    exact Std.TransCmp.isLE_trans

end BAddr

end Tun2SocksWinRT
