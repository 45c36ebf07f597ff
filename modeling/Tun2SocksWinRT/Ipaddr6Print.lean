import Tun2SocksWinRT.Ipaddr6Text

namespace Tun2SocksWinRT

namespace Ipaddr6

/-!
# Printing an IPv6 address

`ipaddr6_print_addr` first scans the groups for the longest run of zero
groups, taking a later run only when it is strictly longer, and then writes
the groups as `%x` texts, leaving that run out for a `"::"` when it has at
least two groups.  The scan is stated against `FirstLongest`, the first of
the longest runs, by an invariant carried one group at a time
(`ScanInv.step`, `ScanInv.scan`).  The text is then the `joinHex` of the
groups before and after the run around a `"::"` (`printAddr_eq`), which the
parser reads back (`parseIpv6Addr_compressed`, `parseIpv6Addr_joinHex`).
-/

section Runs

/-- The \x7blen\x7d groups from \x7bstart\x7d on exist and are zero. -/
structure ZeroRun (groups : List UInt16) (start len : Nat) : Prop where
  inside : start + len ≤ groups.length
  zero : ∀ k, start ≤ k → k < start + len → groups[k]? = some 0

/--
The run `ipaddr6_print_addr` leaves out, after RFC 5952: zero groups, no run
longer, and no run as long before it.
-/
structure FirstLongest (groups : List UInt16) (start len : Nat) : Prop where
  run : ZeroRun groups start len
  longest : ∀ other otherLen, ZeroRun groups other otherLen → otherLen ≤ len
  first : ∀ other otherLen, ZeroRun groups other otherLen → otherLen = len → 0 < len → start ≤ other

namespace ZeroRun

variable {done : List UInt16} {start len : Nat}

theorem append (run : ZeroRun done start len) (more : List UInt16) : ZeroRun (done ++ more) start len where
  inside := by
    have := run.inside
    simp only [List.length_append]
    omega
  zero k low high := by
    rw [List.getElem?_append_left (by have := run.inside; omega)]
    exact run.zero k low high

/-- A run that ends at the end grows by a zero group put after it. -/
theorem snoc_zero (run : ZeroRun done start len) (ends : start + len = done.length) :
    ZeroRun (done ++ [0]) start (len + 1) where
  inside := by
    simp only [List.length_append, List.length_singleton]
    omega
  zero k low high := by
    by_cases old : k < done.length
    · rw [List.getElem?_append_left old]
      exact run.zero k low (by omega)
    · rw [List.getElem?_append_right (by omega), show k - done.length = 0 by omega]
      rfl

/-- A run after one more group lies before it, or ends at it, which is then zero unless the run is empty. -/
theorem of_snoc {g : UInt16} (run : ZeroRun (done ++ [g]) start len) :
    ZeroRun done start len ∨
      (start + len = done.length + 1 ∧ (0 < len → g = 0 ∧ ZeroRun done start (len - 1))) := by
  have inside := run.inside
  simp only [List.length_append, List.length_singleton] at inside
  have before : ∀ k, k < done.length → (done ++ [g])[k]? = done[k]? := fun k old =>
    List.getElem?_append_left old
  by_cases old : start + len ≤ done.length
  · refine Or.inl ⟨old, fun k low high => ?_⟩
    rw [← before k (by omega)]
    exact run.zero k low high
  · refine Or.inr ⟨by omega, fun nonempty => ⟨?_, by omega, fun k low high => ?_⟩⟩
    · have last := run.zero done.length (by omega) (by omega)
      rw [List.getElem?_append_right (Nat.le_refl _), Nat.sub_self] at last
      simpa using last
    · rw [← before k (by omega)]
      exact run.zero k low (by omega)

/-- The groups cut at a run: those before it, its zeros, those after it. -/
theorem split {groups : List UInt16} (run : ZeroRun groups start len) :
    groups.take start ++ List.replicate len 0 ++ groups.drop (start + len) = groups := by
  have inside := run.inside
  apply List.ext_getElem?
  intro k
  rw [List.append_assoc]
  by_cases below : k < start
  · rw [List.getElem?_append_left (by simp; omega), List.getElem?_take_of_lt below]
  · rw [List.getElem?_append_right (by simp; omega), List.length_take_of_le (by omega)]
    by_cases within : k < start + len
    · rw [List.getElem?_append_left (by simp; omega), List.getElem?_replicate_of_lt (by omega),
        run.zero k (by omega) within]
    · rw [List.getElem?_append_right (by simp; omega), List.getElem?_drop, List.length_replicate]
      congr 1
      omega

end ZeroRun

end Runs

section Scan

/-- What the first loop of `ipaddr6_print_addr` knows after the groups \x7bdone\x7d. -/
structure ScanInv (done : List UInt16) (s : Scan) : Prop where
  largest : FirstLongest done s.largestStart s.largestLen
  /-- the current run is the zeros at the end of \x7bdone\x7d, as many as there are -/
  current : ZeroRun done s.currentStart s.currentLen
  currentEnds : s.currentStart + s.currentLen = done.length
  currentFrom : ∀ start len, ZeroRun done start len → start + len = done.length → s.currentStart ≤ start

namespace ScanInv

variable {done : List UInt16} {s : Scan}

theorem init : ScanInv [] ⟨0, 0, 0, 0⟩ where
  largest := {
    run := ⟨Nat.le_refl 0, fun _ _ high => absurd high (Nat.not_lt_zero _)⟩
    longest := fun _ _ run => by have := run.inside; simp at this; omega
    first := fun _ _ _ _ empty => absurd empty (Nat.lt_irrefl 0) }
  current := ⟨Nat.le_refl 0, fun _ _ high => absurd high (Nat.not_lt_zero _)⟩
  currentEnds := rfl
  currentFrom := fun _ _ _ _ => Nat.zero_le _

/-- A run after one more group lies before it, or ends at it and starts within the current run. -/
theorem run_snoc (inv : ScanInv done s) {g : UInt16} {start len : Nat} (run : ZeroRun (done ++ [g]) start len) :
    ZeroRun done start len ∨ (start + len = done.length + 1 ∧ s.currentStart ≤ start ∧ (0 < len → g = 0)) := by
  rcases run.of_snoc with old | ⟨ends, last⟩
  · exact Or.inl old
  · refine Or.inr ⟨ends, ?_, fun nonempty => (last nonempty).1⟩
    by_cases nonempty : 0 < len
    · exact inv.currentFrom start (len - 1) (last nonempty).2 (by omega)
    · have := inv.currentEnds
      omega

/-- After a zero group the current run, one longer, ends at the end and still starts every run that does. -/
theorem current_snoc_zero (inv : ScanInv done s) :
    s.currentStart + (s.currentLen + 1) = (done ++ [0]).length ∧
      ∀ start len, ZeroRun (done ++ [0]) start len → start + len = (done ++ [0]).length → s.currentStart ≤ start := by
  have ends := inv.currentEnds
  refine ⟨by simp only [List.length_append, List.length_singleton]; omega, fun start len run runEnds => ?_⟩
  rcases inv.run_snoc run with old | ⟨-, after, -⟩
  · have := old.inside
    simp only [List.length_append, List.length_singleton] at runEnds
    omega
  · exact after

/-- One round of the loop keeps the invariant, with the strict comparison keeping the first run on a tie. -/
theorem step (inv : ScanInv done s) (g : UInt16) : ScanInv (done ++ [g]) (scanStep s done.length g) := by
  have ends := inv.currentEnds
  have largestInside := inv.largest.run.inside
  unfold scanStep
  dsimp only
  split_ifs with zero longer
  · -- a zero group that makes the current run longer than the longest so far
    subst zero
    have current := inv.current.snoc_zero ends
    exact {
      largest := {
        run := current
        longest := fun start len run => by
          rcases inv.run_snoc run with old | ⟨runEnds, after, -⟩
          · have := inv.largest.longest start len old
            dsimp only
            omega
          · dsimp only
            omega
        first := fun start len run same _ => by
          rcases inv.run_snoc run with old | ⟨-, after, -⟩
          · have := inv.largest.longest start len old
            dsimp only at same
            omega
          · exact after }
      current := current
      currentEnds := inv.current_snoc_zero.1
      currentFrom := inv.current_snoc_zero.2 }
  · -- a zero group, the current run still no longer than the longest
    subst zero
    exact {
      largest := {
        run := inv.largest.run.append [0]
        longest := fun start len run => by
          rcases inv.run_snoc run with old | ⟨runEnds, after, -⟩
          · exact inv.largest.longest start len old
          · dsimp only
            omega
        first := fun start len run same nonzero => by
          rcases inv.run_snoc run with old | ⟨runEnds, -, -⟩
          · exact inv.largest.first start len old same nonzero
          · -- a run as long as the largest that ends here starts after it
            dsimp only at same ⊢
            omega }
      current := inv.current.snoc_zero ends
      currentEnds := inv.current_snoc_zero.1
      currentFrom := inv.current_snoc_zero.2 }
  · -- a nonzero group: a run reaching it is empty
    have emptyHere : ∀ start len, ZeroRun (done ++ [g]) start len →
        ZeroRun done start len ∨ (start + len = done.length + 1 ∧ len = 0) := fun start len run => by
      rcases inv.run_snoc run with old | ⟨runEnds, -, last⟩
      · exact Or.inl old
      · exact Or.inr ⟨runEnds, Nat.eq_zero_of_not_pos fun nonempty => zero (last nonempty)⟩
    exact {
      largest := {
        run := inv.largest.run.append [g]
        longest := fun start len run => by
          rcases emptyHere start len run with old | ⟨-, empty⟩
          · exact inv.largest.longest start len old
          · omega
        first := fun start len run same nonzero => by
          rcases emptyHere start len run with old | ⟨-, empty⟩
          · exact inv.largest.first start len old same nonzero
          · omega }
      current := ⟨by simp, fun _ low high => by dsimp only at low high; omega⟩
      currentEnds := by simp
      currentFrom := fun start len run runEnds => by
        dsimp only
        simp only [List.length_append, List.length_singleton] at runEnds
        rcases emptyHere start len run with old | ⟨-, empty⟩
        · have := old.inside
          omega
        · omega }

/-- The loop from group \x7bdone.length\x7d on, by induction on the groups left. -/
theorem scan (inv : ScanInv done s) (rest : List UInt16) : ScanInv (done ++ rest) (scan done.length s rest) := by
  induction rest generalizing done s with
  | nil => simpa [Ipaddr6.scan] using inv
  | cons g rest inductionHypothesis =>
      have next := inductionHypothesis (inv.step g)
      rw [List.length_append, List.length_singleton, List.append_assoc, List.singleton_append] at next
      exact next

end ScanInv

/-- The first loop of `ipaddr6_print_addr` finds the first of the longest runs of zero groups. -/
theorem scan_firstLongest (groups : List UInt16) :
    FirstLongest groups (scan 0 ⟨0, 0, 0, 0⟩ groups).largestStart (scan 0 ⟨0, 0, 0, 0⟩ groups).largestLen := by
  simpa using (ScanInv.init.scan groups).largest

end Scan

section Text

theorem joinHex_cons (g : UInt16) (groups : List UInt16) :
    joinHex (g :: groups) = hex g ++ groups.flatMap (fun block => ':' :: hex block) := by
  induction groups generalizing g with
  | nil => simp [joinHex]
  | cons g' groups inductionHypothesis => simp [joinHex_cons_cons, inductionHypothesis]

theorem printGroups_colon (groups : List UInt16) :
    printGroups [':'] groups = groups.flatMap (fun block => ':' :: hex block) := by
  induction groups with
  | nil => rfl
  | cons g groups inductionHypothesis => simp [printGroups, inductionHypothesis]

/-- Without a `"::"` the groups are written as `joinHex` has them. -/
theorem printGroups_nil (groups : List UInt16) : printGroups [] groups = joinHex groups := by
  cases groups with
  | nil => rfl
  | cons g groups => simp [printGroups, printGroups_colon, joinHex_cons]

theorem flatMap_colon_hex {groups : List UInt16} (nonempty : groups ≠ []) :
    groups.flatMap (fun block => ':' :: hex block) = ':' :: joinHex groups := by
  obtain ⟨g, groups, rfl⟩ := List.exists_cons_of_ne_nil nonempty
  simp [joinHex_cons]

theorem flatMap_hex_colon {groups : List UInt16} (nonempty : groups ≠ []) :
    groups.flatMap (fun block => hex block ++ [':']) = joinHex groups ++ [':'] := by
  induction groups with
  | nil => exact absurd rfl nonempty
  | cons g groups inductionHypothesis =>
      cases groups with
      | nil => simp [joinHex]
      | cons g' groups =>
          rw [List.flatMap_cons, inductionHypothesis (List.cons_ne_nil g' groups), joinHex_cons_cons]
          simp

/-- The text around the `"::"`: each half as `joinHex` has it, the `':'` the source adds at an empty end included. -/
theorem compressed_eq (front rear : List UInt16) :
    front.flatMap (fun block => hex block ++ [':']) ++ (if front = [] then [':'] else []) ++
        rear.flatMap (fun block => ':' :: hex block) ++ (if rear = [] then [':'] else []) =
      joinHex front ++ ':' :: ':' :: joinHex rear := by
  by_cases noFront : front = [] <;> by_cases noRear : rear = []
  · simp [noFront, noRear, joinHex]
  · simp [noFront, noRear, flatMap_colon_hex, joinHex]
  · simp [noFront, noRear, flatMap_hex_colon, joinHex]
  · simp [noFront, noRear, flatMap_colon_hex, flatMap_hex_colon]

/-- `ipaddr6_print_addr`'s text: the groups around a `"::"` for a run of two or more, else all of them. -/
theorem printAddr_eq (a : Addr) :
    printAddr a =
      if 2 ≤ (scan 0 ⟨0, 0, 0, 0⟩ a.groups).largestLen then
        joinHex (a.groups.take (scan 0 ⟨0, 0, 0, 0⟩ a.groups).largestStart) ++ ':' :: ':' ::
          joinHex (a.groups.drop
            ((scan 0 ⟨0, 0, 0, 0⟩ a.groups).largestStart + (scan 0 ⟨0, 0, 0, 0⟩ a.groups).largestLen))
      else
        joinHex a.groups := by
  have inside := (scan_firstLongest a.groups).run.inside
  rw [a.length_groups] at inside
  unfold printAddr
  dsimp only
  generalize scan 0 ⟨0, 0, 0, 0⟩ a.groups = s at inside ⊢
  by_cases compressed : 2 ≤ s.largestLen
  · -- the source's tests on the run's ends are the halves being empty
    have noFront : a.groups.take s.largestStart = [] ↔ s.largestStart = 0 := by
      rw [List.take_eq_nil_iff, ← List.length_eq_zero_iff, a.length_groups]
      omega
    have noRear : a.groups.drop (s.largestStart + s.largestLen) = [] ↔ s.largestStart + s.largestLen = 8 := by
      rw [List.drop_eq_nil_iff, a.length_groups]
      omega
    rw [if_pos (show s.largestLen > 1 by omega), if_pos compressed, ← compressed_eq]
    simp only [noFront, noRear]
  · rw [if_neg (show ¬s.largestLen > 1 by omega), if_neg compressed]
    exact printGroups_nil a.groups

example : printAddr ⟨[0x2001, 0xdb8, 0, 0, 1, 0, 0, 1], rfl⟩ = "2001:db8::1:0:0:1".toList := by
  decide

end Text

section Canonical

/-- A group's text as RFC 5952 has it: lowercase hex digits and no leading zero. -/
def LowerHex (text : List Char) : Prop :=
  text ≠ [] ∧ (∀ c ∈ text, c ∈ "0123456789abcdef".toList) ∧ (text.head? = some '0' → text = ['0'])

instance : DecidablePred LowerHex := fun _ => by
  unfold LowerHex
  infer_instance

/-- The `%x` text of a number other than zero does not start with `'0'`. -/
theorem toDigits_head_ne_zero {n : Nat} (positive : 0 < n) : (Nat.toDigits 16 n).head? ≠ some '0' := by
  induction n using Nat.strongRecOn with
  | _ n inductionHypothesis =>
      rw [Nat.toDigits_eq_if (by decide)]
      split_ifs with single
      · have digitChars : ∀ d < 16, Nat.digitChar d = '0' → d = 0 := by decide
        intro isZero
        simp only [List.head?_cons, Option.some.injEq] at isZero
        have := digitChars n single isZero
        omega
      · have high := inductionHypothesis (n / 16) (Nat.div_lt_self positive (by decide)) (by omega)
        rwa [List.head?_append_of_ne_nil _ Nat.toDigits_ne_nil]

theorem hex_lowerHex (g : UInt16) : LowerHex (hex g) := by
  refine ⟨Nat.toDigits_ne_nil, fun c member => ?_, fun leading => ?_⟩
  · obtain ⟨d, small, rfl⟩ := mem_toDigits member
    have digitChars : ∀ d < 16, Nat.digitChar d ∈ "0123456789abcdef".toList := by decide
    exact digitChars d small
  · by_cases positive : 0 < g.toNat
    · exact absurd leading (toDigits_head_ne_zero positive)
    · simp [hex, show g.toNat = 0 by omega]

theorem length_hex_le (g : UInt16) : (hex g).length ≤ 4 :=
  (Nat.length_toDigits_le_iff (by decide) (by decide)).mpr (UInt16.toNat_lt g)

/-- Each group takes at most four characters and a separator. -/
theorem length_joinHex_cons_le (g : UInt16) (groups : List UInt16) :
    (joinHex (g :: groups)).length + 1 ≤ 5 * (groups.length + 1) := by
  induction groups generalizing g with
  | nil =>
      have := length_hex_le g
      simp only [joinHex, List.map_cons, List.map_nil, List.intercalate_singleton, List.length_nil]
      omega
  | cons g' groups inductionHypothesis =>
      have := inductionHypothesis g'
      have := length_hex_le g
      rw [joinHex_cons_cons, List.length_append, List.length_cons, List.length_cons]
      omega

theorem length_joinHex_le (groups : List UInt16) : (joinHex groups).length ≤ 5 * groups.length := by
  cases groups with
  | nil => simp [joinHex]
  | cons g groups =>
      have := length_joinHex_cons_le g groups
      rw [List.length_cons]
      omega

end Canonical

section RoundTrip

/-- `ipaddr6_parse_ipv6_addr` reads back what `ipaddr6_print_addr` prints. -/
theorem parseIpv6Addr_printAddr (a : Addr) : parseIpv6Addr (printAddr a) = .accepted a.groups := by
  have longest := scan_firstLongest a.groups
  have inside := longest.run.inside
  rw [a.length_groups] at inside
  rw [printAddr_eq]
  split_ifs with compressed
  · -- the zeros the "::" stands for are the run left out
    rw [parseIpv6Addr_compressed _ _ (by simp; omega) (by simp [a.length_groups]; omega)]
    congr 1
    conv => rhs; rw [← longest.run.split]
    simp only [List.length_take, List.length_drop, a.length_groups]
    congr 3
    omega
  · exact parseIpv6Addr_joinHex a.groups a.length_groups

/-- At most eight groups of four digits, and seven separators. -/
theorem length_printAddr_le (a : Addr) : (printAddr a).length ≤ 39 := by
  have inside := (scan_firstLongest a.groups).run.inside
  rw [a.length_groups] at inside
  rw [printAddr_eq]
  split_ifs with compressed
  · have front := length_joinHex_le (a.groups.take (scan 0 ⟨0, 0, 0, 0⟩ a.groups).largestStart)
    have rear := length_joinHex_le
      (a.groups.drop ((scan 0 ⟨0, 0, 0, 0⟩ a.groups).largestStart + (scan 0 ⟨0, 0, 0, 0⟩ a.groups).largestLen))
    simp only [List.length_take, List.length_drop, a.length_groups] at front rear
    simp only [List.length_append, List.length_cons]
    omega
  · -- eight groups: the first takes at most four characters, each other one five
    obtain ⟨g, rest, groups⟩ : ∃ g rest, a.groups = g :: rest := List.exists_cons_of_length_eq_add_one a.length_groups
    have rest8 : rest.length = 7 := by simpa [groups] using a.length_groups
    have := length_joinHex_cons_le g rest
    rw [groups]
    omega

/--
`ipaddr6_print_addr` writes the RFC 5952 text of every address: the groups in
lowercase hex without leading zeros, the first of the longest runs of two or
more zero groups left out for a `"::"` and no `"::"` otherwise, in at most
`IPADDR6_PRINT_MAX - 1` characters; and `ipaddr6_parse_ipv6_addr` reads the
address back from it.
-/
theorem printAddr_canonical (a : Addr) :
    (∃ start len, FirstLongest a.groups start len ∧
      printAddr a =
        if 2 ≤ len then joinHex (a.groups.take start) ++ ':' :: ':' :: joinHex (a.groups.drop (start + len))
        else joinHex a.groups) ∧
    (∀ g ∈ a.groups, LowerHex (hex g)) ∧
    (printAddr a).length ≤ printMax - 1 ∧
    parseIpv6Addr (printAddr a) = .accepted a.groups := by
  have short := length_printAddr_le a
  refine ⟨⟨_, _, scan_firstLongest a.groups, printAddr_eq a⟩, fun g _ => hex_lowerHex g, ?_,
    parseIpv6Addr_printAddr a⟩
  simp only [printMax]
  omega

end RoundTrip

end Ipaddr6

end Tun2SocksWinRT
