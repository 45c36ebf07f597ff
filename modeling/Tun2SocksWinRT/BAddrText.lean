import Mathlib
import Tun2SocksWinRT.IpProto
import Tun2SocksWinRT.Ipaddr
import Tun2SocksWinRT.Ipaddr6Print

namespace Tun2SocksWinRT

namespace BAddrText

/-!
# Socket addresses as text

`system/BAddr.h` writes an address with `BAddr_Print` (the log lines of
`client_logfunc`) and reads one with `BAddr_Parse2` (the SOCKS server address
given to `tun2socks_Init`).  The reader splits `"addr:port"` or
`"[addr]:port"`, copies both parts into fixed buffers, reads the port with
`strtol` and hands the address text to `getaddrinfo`, which the model takes
as an oracle (`Resolver`).

The results:

* the port field accepts exactly blanks, an optional sign and one to five
  digits worth at most 65535, a minus only before zero (`parsePort_eq_some_iff`);
* every text the reader accepts has one of the two shapes, with the name
  buffer holding the address part;
* a printed IPv4 address reads back as itself, for every resolver that reads
  the dotted quad back;
* a printed IPv6 address never reads back: the printer writes no brackets, so
  the reader takes the first group for the address and the rest for the port;
* the printed texts fit the buffers the header asks callers to give.
-/

open Ipaddr6 (joinHex hex)

section Port

/-- `isspace` in the C locale: the blank and the controls from tab to carriage return. -/
def isSpace (c : Char) : Bool :=
  c == ' ' || (9 ≤ c.toNat && c.toNat ≤ 13)

/-- The number a run of decimal digits stands for. -/
def digitsValue (digits : List Char) : Nat :=
  DigitText.value 10 (digits.map fun c => c.toNat - '0'.toNat)

/-- The sign `strtol` reads after the blanks: whether it negates, and the text after it. -/
def takeSign : List Char → Bool × List Char
  | '-' :: rest => (true, rest)
  | '+' :: rest => (false, rest)
  | body => (false, body)

/--
`strtol(str, &err, 10)` on a text of at most five characters, which no value
can overflow: the value read and the text from `err` on.  With no digit
nothing is read and `err` is `str` itself.
-/
def strtol (str : List Char) : Int × List Char :=
  let signed := takeSign (str.dropWhile isSpace)
  let digits := signed.2.takeWhile Char.isDigit
  if digits = [] then (0, str)
  else
    let magnitude : Int := digitsValue digits
    (if signed.1 then -magnitude else magnitude, signed.2.dropWhile Char.isDigit)

/--
The port half of `BAddr_Parse2`: copied into a buffer of six characters, read
by `strtol`, refused unless the whole text is a number in `0 .. UINT16_MAX`,
and kept in network order.
-/
def parsePort (portStr : List Char) : Option (Vector UInt8 2) :=
  if portStr.length ≥ 6 then none
  else
    let conv := strtol portStr
    if portStr = [] ∨ conv.2 ≠ [] then none
    else if conv.1 < 0 ∨ conv.1 > 65535 then none
    else some (hton16 conv.1.toNat)

theorem toNat_of_isDigit {c : Char} (digit : c.isDigit) : 48 ≤ c.toNat ∧ c.toNat ≤ 57 := by
  simp only [Char.isDigit, Bool.and_eq_true, decide_eq_true_eq] at digit
  exact digit

theorem isSpace_of_isDigit {c : Char} (digit : c.isDigit) : isSpace c = false := by
  have bounds := toNat_of_isDigit digit
  have notBlank : c ≠ ' ' := fun blank => by simp [blank] at bounds
  simp [isSpace, notBlank]
  omega

/-- The text `Nat.toDigits` writes reads back as the number. -/
theorem digitsValue_toDigits (n : Nat) : digitsValue (Nat.toDigits 10 n) = n := by
  obtain ⟨ds, small, text, worth⟩ := DigitText.toDigits_eq_map_digitChar (b := 10) (by norm_num) n
  have readBack : ∀ d ∈ ds, ((fun c => c.toNat - '0'.toNat) ∘ Nat.digitChar) d = id d :=
    fun d member => by
      simp only [Function.comp_apply, Nat.toNat_digitChar_of_lt_ten (small d member), id]
      simp
  rw [digitsValue, text, List.map_map, List.map_congr_left (g := id) readBack, List.map_id, worth]

/-- What `takeSign` takes off is no sign, a plus or a minus, and only the minus negates. -/
theorem takeSign_spec (body : List Char) :
    ∃ sign ∈ [[], ['+'], ['-']], body = sign ++ (takeSign body).2 ∧
      (takeSign body).1 = decide (sign = ['-']) := by
  unfold takeSign
  split
  · exact ⟨['-'], by simp, rfl, rfl⟩
  · exact ⟨['+'], by simp, rfl, rfl⟩
  · exact ⟨[], by simp, rfl, rfl⟩

/-- Before digits, `takeSign` takes off exactly the sign written. -/
theorem takeSign_append {sign digits : List Char} (signed : sign ∈ [[], ['+'], ['-']])
    (nonempty : digits ≠ []) (allDigits : ∀ c ∈ digits, c.isDigit) :
    takeSign (sign ++ digits) = (decide (sign = ['-']), digits) := by
  obtain ⟨d, ds, rfl⟩ := List.exists_cons_of_ne_nil nonempty
  have digit := allDigits d List.mem_cons_self
  have notMinus : d ≠ '-' := fun minus => by simp [minus] at digit
  have notPlus : d ≠ '+' := fun plus => by simp [plus] at digit
  simp only [List.mem_cons, List.not_mem_nil, or_false] at signed
  rcases signed with rfl | rfl | rfl
  · exact takeSign.eq_3 _ (by simp [notMinus]) (by simp [notPlus])
  · rfl
  · rfl

/-- Blanks, a sign and digits are read whole, the sign applied to the digits' value. -/
theorem strtol_append {spaces sign digits : List Char} (blank : ∀ c ∈ spaces, isSpace c)
    (signed : sign ∈ [[], ['+'], ['-']]) (nonempty : digits ≠ []) (allDigits : ∀ c ∈ digits, c.isDigit) :
    strtol (spaces ++ sign ++ digits) =
      (if sign = ['-'] then -(digitsValue digits : Int) else digitsValue digits, []) := by
  obtain ⟨d, ds, rfl⟩ := List.exists_cons_of_ne_nil nonempty
  -- the blanks are skipped and the sign, or the first digit, stops the skip
  have skipped : (spaces ++ sign ++ d :: ds).dropWhile isSpace = sign ++ d :: ds := by
    rw [List.append_assoc, List.dropWhile_append_of_pos blank]
    simp only [List.mem_cons, List.not_mem_nil, or_false] at signed
    rcases signed with rfl | rfl | rfl
    · exact List.dropWhile_cons_of_neg (by simp [isSpace_of_isDigit (allDigits d List.mem_cons_self)])
    · exact List.dropWhile_cons_of_neg (by decide)
    · exact List.dropWhile_cons_of_neg (by decide)
  have whole : (d :: ds).takeWhile Char.isDigit = d :: ds := List.takeWhile_eq_self_iff.mpr allDigits
  have rest : (d :: ds).dropWhile Char.isDigit = [] := List.dropWhile_eq_nil_iff.mpr allDigits
  simp only [strtol, skipped, takeSign_append signed nonempty allDigits, whole, rest, reduceCtorEq,
    if_false, decide_eq_true_eq]

/-- A text `strtol` reads whole is blanks, an optional sign and at least one digit. -/
theorem strtol_eq_nil {str : List Char} (nonempty : str ≠ []) {v : Int} (read : strtol str = (v, [])) :
    ∃ spaces sign digits, str = spaces ++ sign ++ digits ∧ (∀ c ∈ spaces, isSpace c) ∧
      sign ∈ [[], ['+'], ['-']] ∧ digits ≠ [] ∧ (∀ c ∈ digits, c.isDigit) ∧
      v = if sign = ['-'] then -(digitsValue digits : Int) else digitsValue digits := by
  obtain ⟨sign, signed, split, negative⟩ := takeSign_spec (str.dropWhile isSpace)
  unfold strtol at read
  dsimp only at read
  split at read
  · -- no digit: err is str itself, which is not empty
    exact absurd (Prod.ext_iff.mp read).2 nonempty
  · rename_i someDigits
    set body := (takeSign (str.dropWhile isSpace)).2
    obtain ⟨value, ended⟩ := Prod.mk.inj read
    have allDigits : ∀ c ∈ body, c.isDigit := List.dropWhile_eq_nil_iff.mp ended
    have whole : body.takeWhile Char.isDigit = body := List.takeWhile_eq_self_iff.mpr allDigits
    refine ⟨str.takeWhile isSpace, sign, body, ?_, fun c member => List.mem_takeWhile_imp member,
      signed, ?_, allDigits, ?_⟩
    · rw [List.append_assoc, ← split, List.takeWhile_append_dropWhile]
    · rwa [whole] at someDigits
    · rw [← value, negative, whole]
      simp

/-- A port text of six characters or more does not fit the buffer and is refused. -/
theorem parsePort_of_six_le {portStr : List Char} (long : 6 ≤ portStr.length) :
    parsePort portStr = none := by
  simp [parsePort, long]

/-- The signed value `strtol` gives is a port exactly when the sign is not a minus before a number other than zero. -/
theorem signed_value_in_range (digits : List Char) {sign : List Char} (signed : sign ∈ [[], ['+'], ['-']]) :
    (0 ≤ (if sign = ['-'] then -(digitsValue digits : Int) else digitsValue digits) ∧
      (if sign = ['-'] then -(digitsValue digits : Int) else digitsValue digits) ≤ 65535) ↔
      (sign = [] ∨ sign = ['+'] ∨ sign = ['-'] ∧ digitsValue digits = 0) ∧ digitsValue digits ≤ 65535 := by
  simp only [List.mem_cons, List.not_mem_nil, or_false] at signed
  rcases signed with rfl | rfl | rfl
  · simp
  · simp
  · simp
    omega

/-- Blanks, a sign allowed before the digits and at most five characters in all are read as the digits' port. -/
theorem parsePort_append (spaces sign digits : List Char) (short : (spaces ++ sign ++ digits).length ≤ 5)
    (blank : ∀ c ∈ spaces, isSpace c) (signs : sign = [] ∨ sign = ['+'] ∨ sign = ['-'] ∧ digitsValue digits = 0)
    (nonempty : digits ≠ []) (allDigits : ∀ c ∈ digits, c.isDigit) (bounded : digitsValue digits ≤ 65535) :
    parsePort (spaces ++ sign ++ digits) = some (hton16 (digitsValue digits)) := by
  have signed : sign ∈ [[], ['+'], ['-']] := by
    rcases signs with rfl | rfl | ⟨rfl, -⟩ <;> simp
  -- a minus stands only before zero, so the value read is the digits' value
  have value : (if sign = ['-'] then -(digitsValue digits : Int) else digitsValue digits) =
      digitsValue digits := by
    rcases signs with rfl | rfl | ⟨rfl, zero⟩
    · simp
    · simp
    · simp [zero]
  have read := strtol_append blank signed nonempty allDigits
  rw [value] at read
  have whole : spaces ++ sign ++ digits ≠ [] := by simp [nonempty]
  have fits : ¬(spaces ++ sign ++ digits).length ≥ 6 := by omega
  have inRange : ¬((digitsValue digits : Int) < 0 ∨ (digitsValue digits : Int) > 65535) := by omega
  simp only [parsePort, read, whole, fits, inRange, ne_eq, not_true_eq_false, or_false, if_false,
    Int.toNat_natCast]

/--
The port field accepts exactly blanks, an optional sign and digits, in five
characters at most, worth at most `UINT16_MAX`, with a minus only before zero.
-/
theorem parsePort_eq_some_iff {portStr : List Char} {port : Vector UInt8 2} :
    parsePort portStr = some port ↔
      portStr.length ≤ 5 ∧ ∃ spaces sign digits, portStr = spaces ++ sign ++ digits ∧
        (∀ c ∈ spaces, isSpace c) ∧ (sign = [] ∨ sign = ['+'] ∨ sign = ['-'] ∧ digitsValue digits = 0) ∧
        digits ≠ [] ∧ (∀ c ∈ digits, c.isDigit) ∧ digitsValue digits ≤ 65535 ∧
        port = hton16 (digitsValue digits) := by
  constructor
  · intro accepted
    rcases conv : strtol portStr with ⟨v, err⟩
    simp only [parsePort, conv] at accepted
    split_ifs at accepted with long refused outside
    obtain ⟨nonempty, rfl⟩ : portStr ≠ [] ∧ err = [] := by simpa only [not_or, not_not] using refused
    obtain ⟨spaces, sign, digits, text, blank, signed, someDigits, allDigits, rfl⟩ :=
      strtol_eq_nil nonempty conv
    have inRange := (signed_value_in_range digits signed).mp (by omega)
    refine ⟨by omega, spaces, sign, digits, text, blank, inRange.1, someDigits, allDigits, inRange.2, ?_⟩
    rw [← Option.some.inj accepted]
    rcases inRange.1 with rfl | rfl | ⟨rfl, zero⟩ <;> simp [*]
  · rintro ⟨short, spaces, sign, digits, rfl, blank, signs, nonempty, allDigits, bounded, rfl⟩
    exact parsePort_append spaces sign digits short blank signs nonempty allDigits bounded

/-- `hton16` undoes `ntoh16`: two network-order bytes are rebuilt from their number. -/
theorem hton16_ntoh16 (bytes : Vector UInt8 2) : hton16 (ntoh16 bytes) = bytes := by
  have high := bytes[0].toNat_lt
  have low := bytes[1].toNat_lt
  ext i inside
  simp only [hton16, ntoh16, OnesComplement.word]
  interval_cases i
  · simp
    omega
  · simp

/-- A port's decimal text takes at most five characters. -/
theorem length_toDigits_ntoh16_le (port : Vector UInt8 2) : (Nat.toDigits 10 (ntoh16 port)).length ≤ 5 :=
  (Nat.length_toDigits_le_iff (by norm_num) (by norm_num)).mpr (by have := ntoh16_lt port; omega)

/-- The decimal text `BAddr_Print` writes for a port reads back as that port. -/
theorem parsePort_toDigits (port : Vector UInt8 2) :
    parsePort (Nat.toDigits 10 (ntoh16 port)) = some port := by
  have value := digitsValue_toDigits (ntoh16 port)
  have below := ntoh16_lt port
  have read := parsePort_append [] [] _ (by simpa using length_toDigits_ntoh16_le port)
    (by simp) (Or.inl rfl) Nat.toDigits_ne_nil
    (fun c member => Nat.isDigit_of_mem_toDigits (by norm_num) (by norm_num) member) (by omega)
  simpa only [List.nil_append, value, hton16_ntoh16] using read

end Port

section Parse

/--
`getaddrinfo` for one family, which the model does not look into: for whether
`AI_NUMERICHOST` is set and the address text, the first address it returns,
or none when it fails.
-/
structure Resolver where
  ipv4 : Bool → List Char → Option (Vector UInt8 4)
  ipv6 : Bool → List Char → Option (Vector UInt8 16)

/--
The split of `BAddr_Parse2`: after a leading `'['` the address runs to the
first `']'`, which `':'` must follow; otherwise it runs to the first `':'`.
The result says whether the address is IPv6, and gives the address and port texts.
-/
def splitAddr (str : List Char) : Option (Bool × List Char × List Char) :=
  match str with
  | '[' :: rest =>
      match rest.dropWhile (fun c => c != ']') with
      | ']' :: ':' :: port => some (true, rest.takeWhile (fun c => c != ']'), port)
      | _ => none
  | _ =>
      match str.dropWhile (fun c => c != ':') with
      | ':' :: port => some (false, str.takeWhile (fun c => c != ':'), port)
      | _ => none

section Split

variable {α : Type} [DecidableEq α]

/-- Before the first `a`, dropping up to `a` leaves `a` and what follows it. -/
theorem dropWhile_ne_append {a : α} {front : List α} (absent : a ∉ front) (rest : List α) :
    (front ++ a :: rest).dropWhile (fun c => c != a) = a :: rest := by
  rw [List.dropWhile_append_of_pos fun c member => by simpa using ne_of_mem_of_not_mem member absent]
  exact List.dropWhile_cons_of_neg (by simp)

/-- Before the first `a`, taking up to `a` takes what stands before it. -/
theorem takeWhile_ne_append {a : α} {front : List α} (absent : a ∉ front) (rest : List α) :
    (front ++ a :: rest).takeWhile (fun c => c != a) = front := by
  rw [List.takeWhile_append_of_pos fun c member => by simpa using ne_of_mem_of_not_mem member absent,
    List.takeWhile_cons_of_neg (by simp), List.append_nil]

/-- Where dropping up to `a` stops at an `a`, the text is what was taken, free of `a`, then the rest. -/
theorem eq_takeWhile_append_of_dropWhile {a : α} {l rest : List α}
    (stop : l.dropWhile (fun c => c != a) = a :: rest) :
    a ∉ l.takeWhile (fun c => c != a) ∧ l = l.takeWhile (fun c => c != a) ++ a :: rest := by
  refine ⟨fun member => by simpa using List.mem_takeWhile_imp member, ?_⟩
  rw [← stop, List.takeWhile_append_dropWhile]

end Split

/--
`BAddr_Parse2` splits `"[addr]:port"` into an IPv6 address text free of `']'`,
and any other text at its first `':'` into an IPv4 address text.
-/
theorem splitAddr_eq_some_iff {str addrStr portStr : List Char} {ipv6 : Bool} :
    splitAddr str = some (ipv6, addrStr, portStr) ↔
      (ipv6 = true ∧ ']' ∉ addrStr ∧ str = '[' :: (addrStr ++ ']' :: ':' :: portStr)) ∨
      (ipv6 = false ∧ ':' ∉ addrStr ∧ addrStr.head? ≠ some '[' ∧ str = addrStr ++ ':' :: portStr) := by
  constructor
  · intro split
    unfold splitAddr at split
    split at split
    · -- a leading '[': the address runs to the first ']', which ':' follows
      rename_i rest
      split at split
      · rename_i port stop
        obtain ⟨rfl, rfl, rfl⟩ : true = ipv6 ∧ _ = addrStr ∧ port = portStr := by simpa using split
        obtain ⟨absent, text⟩ := eq_takeWhile_append_of_dropWhile stop
        exact Or.inl ⟨rfl, absent, by rw [← text]⟩
      · simp at split
    · -- otherwise the address runs to the first ':'
      rename_i notBracket
      split at split
      · rename_i port stop
        obtain ⟨rfl, rfl, rfl⟩ : false = ipv6 ∧ _ = addrStr ∧ port = portStr := by simpa using split
        obtain ⟨absent, text⟩ := eq_takeWhile_append_of_dropWhile stop
        refine Or.inr ⟨rfl, absent, fun head => ?_, text⟩
        rw [List.head?_takeWhile, Option.filter_eq_some_iff] at head
        obtain ⟨first, -⟩ := head
        exact notBracket _ (List.eq_cons_of_mem_head? first)
      · simp at split
  · rintro (⟨rfl, absent, rfl⟩ | ⟨rfl, absent, head, rfl⟩)
    · simp only [splitAddr, dropWhile_ne_append absent, takeWhile_ne_append absent]
    · have notBracket : ∀ rest, addrStr ++ ':' :: portStr = '[' :: rest → False := by
        intro rest text
        cases addrStr with
        | nil => simp at text
        | cons c cs => simp_all
      rw [splitAddr.eq_2 _ notBracket]
      simp only [dropWhile_ne_append absent, takeWhile_ne_append absent]

/-- The address `getaddrinfo` gives in the family the text chose, with the port. -/
def resolve (resolver : Resolver) (noresolve ipv6 : Bool) (addrStr : List Char)
    (port : Vector UInt8 2) : Option BAddr :=
  if ipv6 then (resolver.ipv6 noresolve addrStr).map fun ip => .ipv6 ip port
  else (resolver.ipv4 noresolve addrStr).map fun ip => .ipv4 ip port

/-- The copy of the address text into the caller's name buffer, refused when it does not fit. -/
def copyName (nameLen : Option Nat) (addrStr : List Char) : Option (Option (List Char)) :=
  match nameLen with
  | none => some none
  | some len => if addrStr.length ≥ len then none else some (some addrStr)

/--
`BAddr_Parse2`: the address and, when the caller passes a name buffer of
`nameLen` characters, the address text copied into it; none where it returns 0.
-/
def parse2 (resolver : Resolver) (str : List Char) (nameLen : Option Nat) (noresolve : Bool) :
    Option (BAddr × Option (List Char)) :=
  if str.length < 1 ∨ str.length > 1000 then none
  else
    match splitAddr str with
    | none => none
    | some (ipv6, addrStr, portStr) =>
        -- addr_str is a buffer of 128 characters
        if addrStr.length ≥ 128 then none
        else do
          let port ← parsePort portStr
          let addr ← resolve resolver noresolve ipv6 addrStr port
          let name ← copyName nameLen addrStr
          pure (addr, name)

/-- `BAddr_Parse`: `BAddr_Parse2` with names resolved. -/
def parse (resolver : Resolver) (str : List Char) (nameLen : Option Nat) : Option (BAddr × Option (List Char)) :=
  parse2 resolver str nameLen false

/-- `BAddr_Parse2` succeeds exactly when each of its stages does, in the order of the source. -/
theorem parse2_eq_some_iff {resolver : Resolver} {str : List Char} {nameLen : Option Nat}
    {noresolve : Bool} {addr : BAddr} {name : Option (List Char)} :
    parse2 resolver str nameLen noresolve = some (addr, name) ↔
      1 ≤ str.length ∧ str.length ≤ 1000 ∧ ∃ ipv6 addrStr portStr port,
        splitAddr str = some (ipv6, addrStr, portStr) ∧ addrStr.length < 128 ∧
        parsePort portStr = some port ∧ resolve resolver noresolve ipv6 addrStr port = some addr ∧
        copyName nameLen addrStr = some name := by
  unfold parse2
  split_ifs with outside
  · -- the length check refuses the text
    simp only [false_iff]
    omega
  · rcases split : splitAddr str with _ | ⟨ipv6, addrStr, portStr⟩
    · simp
    · simp only [Option.some.injEq, Prod.mk.injEq, exists_and_left]
      split_ifs with long
      · -- the address does not fit addr_str
        simp
        omega
      · have lengths : 1 ≤ str.length ∧ str.length ≤ 1000 ∧ addrStr.length < 128 := by omega
        simp [Option.bind_eq_some_iff, lengths]

/--
What `BAddr_Parse2` accepts: a bracketed IPv6 address text or an IPv4 address
text free of `':'`, then `':'` and a port text `parsePort` reads; the address
is what the resolver gives for the address text, and a name buffer receives
that text.
-/
theorem parse2_accepts_address_port {resolver : Resolver} {str : List Char} {nameLen : Option Nat}
    {noresolve : Bool} {addr : BAddr} {name : Option (List Char)}
    (accepted : parse2 resolver str nameLen noresolve = some (addr, name)) :
    str.length ≤ 1000 ∧ ∃ addrStr portStr port, addrStr.length < 128 ∧
      parsePort portStr = some port ∧ copyName nameLen addrStr = some name ∧
      ((str = '[' :: (addrStr ++ ']' :: ':' :: portStr) ∧ ']' ∉ addrStr ∧
          ∃ ip, resolver.ipv6 noresolve addrStr = some ip ∧ addr = .ipv6 ip port) ∨
        (str = addrStr ++ ':' :: portStr ∧ ':' ∉ addrStr ∧
          ∃ ip, resolver.ipv4 noresolve addrStr = some ip ∧ addr = .ipv4 ip port)) := by
  obtain ⟨-, short, ipv6, addrStr, portStr, port, split, fits, portRead, resolved, named⟩ :=
    parse2_eq_some_iff.mp accepted
  refine ⟨short, addrStr, portStr, port, fits, portRead, named, ?_⟩
  rcases splitAddr_eq_some_iff.mp split with ⟨rfl, absent, text⟩ | ⟨rfl, absent, -, text⟩
  · simp only [resolve, if_true, Option.map_eq_some_iff] at resolved
    obtain ⟨ip, found, rfl⟩ := resolved
    exact Or.inl ⟨text, absent, ip, found, rfl⟩
  · simp only [resolve, Bool.false_eq_true, if_false, Option.map_eq_some_iff] at resolved
    obtain ⟨ip, found, rfl⟩ := resolved
    exact Or.inr ⟨text, absent, ip, found, rfl⟩

/-- The destination override of `tun2socks.c` as `BAddr_Parse2` splits it. -/
theorem parse2_accepts_address_port_override :
    "10.111.0.2:2000".toList.length ≤ 1000 ∧ ∃ addrStr portStr port, addrStr.length < 128 ∧
      parsePort portStr = some port ∧ copyName none addrStr = some none ∧
      (("10.111.0.2:2000".toList = '[' :: (addrStr ++ ']' :: ':' :: portStr) ∧ ']' ∉ addrStr ∧
          ∃ ip, (none : Option (Vector UInt8 16)) = some ip ∧
            BAddr.ipv4 #v[10, 111, 0, 2] #v[7, 208] = .ipv6 ip port) ∨
        ("10.111.0.2:2000".toList = addrStr ++ ':' :: portStr ∧ ':' ∉ addrStr ∧
          ∃ ip, Ipaddr.parseIpv4Addr addrStr = some ip ∧
            BAddr.ipv4 #v[10, 111, 0, 2] #v[7, 208] = .ipv4 ip port)) :=
  parse2_accepts_address_port
    (by decide +kernel : parse2 ⟨fun _ text => Ipaddr.parseIpv4Addr text, fun _ _ => none⟩
      "10.111.0.2:2000".toList none true = some (.ipv4 #v[10, 111, 0, 2] #v[7, 208], none))

end Parse

section Print

/-- `BIPADDR_MAX_PRINT_LEN`, the buffer `BIPAddr_Print` asks for. -/
def bipaddrMaxPrintLen : Nat := 40

/-- `BADDR_MAX_PRINT_LEN`, the buffer `BAddr_Print` asks for. -/
def baddrMaxPrintLen : Nat := 120

/-- A `BIPAddr` of type `BADDR_TYPE_IPV4` or `BADDR_TYPE_IPV6`: an address without a port. -/
inductive BIPAddr
  | ipv4 (ip : Vector UInt8 4)
  | ipv6 (ip : Vector UInt8 16)
  deriving DecidableEq, Repr

/-- `badvpn_read_be16` at each even offset: the 16-bit groups of an IPv6 address. -/
def be16Groups : List UInt8 → List UInt16
  | high :: low :: rest => UInt16.ofNat (OnesComplement.word high low) :: be16Groups rest
  | _ => []

/-- `BIPAddr_Print`: the dotted quad, or all eight groups in `%x` with none left out. -/
def BIPAddr.print : BIPAddr → List Char
  | .ipv4 ip => Ipaddr.printAddr ip
  | .ipv6 ip => joinHex (be16Groups ip.toList)

/-- `BAddr_Print`: the address as `BIPAddr_Print` writes it, then `':'` and the port in decimal. -/
def print : BAddr → List Char
  | .ipv4 ip port => (BIPAddr.ipv4 ip).print ++ ':' :: Nat.toDigits 10 (ntoh16 port)
  | .ipv6 ip port => (BIPAddr.ipv6 ip).print ++ ':' :: Nat.toDigits 10 (ntoh16 port)

theorem length_be16Groups (bytes : List UInt8) : (be16Groups bytes).length = bytes.length / 2 := by
  fun_induction be16Groups bytes with
  | case1 high low rest inductionHypothesis =>
      simp only [List.length_cons, inductionHypothesis]
      omega
  | case2 bytes notPair =>
      -- fewer than two bytes are left
      rcases bytes with _ | ⟨high, _ | ⟨low, rest⟩⟩
      · rfl
      · simp
      · exact absurd rfl (notPair high low rest)

theorem mem_printAddr {ip : Vector UInt8 4} {c : Char} (member : c ∈ Ipaddr.printAddr ip) :
    c.isDigit ∨ c = '.' := by
  simp only [Ipaddr.printAddr, List.mem_append, List.mem_cons] at member
  rcases member with ((digit | dot | digit) | dot | digit) | dot | digit <;>
    first | exact Or.inr dot | exact Or.inl (Ipaddr.isDigit_of_mem_byteText digit)

theorem length_printAddr_le (ip : Vector UInt8 4) : (Ipaddr.printAddr ip).length ≤ 15 := by
  have b0 := Ipaddr.length_byteText_le ip[0]
  have b1 := Ipaddr.length_byteText_le ip[1]
  have b2 := Ipaddr.length_byteText_le ip[2]
  have b3 := Ipaddr.length_byteText_le ip[3]
  simp only [Ipaddr.printAddr, List.length_append, List.length_cons]
  omega

/-- Each group takes at least one character and a separator. -/
theorem length_joinHex_cons_ge (g : UInt16) (groups : List UInt16) :
    2 * groups.length + 1 ≤ (joinHex (g :: groups)).length := by
  induction groups generalizing g with
  | nil =>
      obtain ⟨c, more, -, text, -⟩ := Ipaddr6.hex_eq_cons g
      simp [joinHex, text]
  | cons g' groups inductionHypothesis =>
      have := inductionHypothesis g'
      have := List.length_pos_of_ne_nil (Ipaddr6.hex_lowerHex g).1
      rw [Ipaddr6.joinHex_cons_cons, List.length_append, List.length_cons, List.length_cons]
      omega

/-- A group's text holds neither of the characters that end an address text. -/
theorem not_mem_hex {g : UInt16} {c : Char} (member : c ∈ hex g) : c ≠ ':' ∧ c ≠ '[' := by
  have hexDigit := (Ipaddr6.hex_lowerHex g).2.1 c member
  constructor <;> (rintro rfl; revert hexDigit; decide)

/-- An IPv6 address prints as its first group, `':'`, and seven more groups before the port. -/
theorem print_ipv6_eq (ip : Vector UInt8 16) (port : Vector UInt8 2) :
    ∃ g g' groups, groups.length = 6 ∧
      print (.ipv6 ip port) = hex g ++ ':' :: (joinHex (g' :: groups) ++ ':' :: Nat.toDigits 10 (ntoh16 port)) := by
  have eight : (be16Groups ip.toList).length = 8 := by simp [length_be16Groups]
  rcases groups : be16Groups ip.toList with _ | ⟨g, _ | ⟨g', rest⟩⟩
  · simp [groups] at eight
  · simp [groups] at eight
  · refine ⟨g, g', rest, by simpa [groups] using eight, ?_⟩
    simp [print, BIPAddr.print, groups, Ipaddr6.joinHex_cons_cons]

/-- `BIPAddr_Print` writes at most 39 characters: eight groups of four and seven separators. -/
theorem length_print_le (ip : BIPAddr) : ip.print.length ≤ 39 := by
  cases ip with
  | ipv4 ip =>
      have := length_printAddr_le ip
      simp only [BIPAddr.print]
      omega
  | ipv6 ip =>
      have eight : (be16Groups ip.toList).length = 8 := by simp [length_be16Groups]
      rcases groups : be16Groups ip.toList with _ | ⟨g, rest⟩
      · simp [groups] at eight
      · have := Ipaddr6.length_joinHex_cons_le g rest
        simp only [groups, List.length_cons] at eight
        simp only [BIPAddr.print, groups]
        omega

/--
`BIPAddr_Print` and `BAddr_Print` write, with the terminating null, within the
`BIPADDR_MAX_PRINT_LEN` and `BADDR_MAX_PRINT_LEN` characters `BAddr.h` asks the
caller's buffer to have.
-/
theorem printers_fit_buffers :
    (∀ ip : BIPAddr, ip.print.length + 1 ≤ bipaddrMaxPrintLen) ∧
      ∀ addr : BAddr, (print addr).length + 1 ≤ baddrMaxPrintLen := by
  refine ⟨fun ip => ?_, fun addr => ?_⟩
  · have := length_print_le ip
    simp only [bipaddrMaxPrintLen]
    omega
  · cases addr with
    | ipv4 ip port =>
        have := length_print_le (.ipv4 ip)
        have := length_toDigits_ntoh16_le port
        simp only [print, List.length_append, List.length_cons, baddrMaxPrintLen]
        omega
    | ipv6 ip port =>
        have := length_print_le (.ipv6 ip)
        have := length_toDigits_ntoh16_le port
        simp only [print, List.length_append, List.length_cons, baddrMaxPrintLen]
        omega

end Print

section RoundTrip

/--
A printed IPv4 address reads back as itself, for every resolver that reads the
dotted quad back; a name buffer receives the dotted quad when it fits.
-/
theorem parse2_print_ipv4 (resolver : Resolver) (noresolve : Bool) (nameLen : Option Nat)
    (ip : Vector UInt8 4) (port : Vector UInt8 2)
    (numeric : resolver.ipv4 noresolve (Ipaddr.printAddr ip) = some ip) :
    parse2 resolver (print (.ipv4 ip port)) nameLen noresolve =
      (copyName nameLen (Ipaddr.printAddr ip)).map fun name => (.ipv4 ip port, name) := by
  have noColon : ':' ∉ Ipaddr.printAddr ip := fun member => by
    rcases mem_printAddr member with digit | dot
    · exact absurd digit (by decide)
    · exact absurd dot (by decide)
  have noBracket : (Ipaddr.printAddr ip).head? ≠ some '[' := fun head => by
    rcases mem_printAddr (List.mem_of_mem_head? head) with digit | dot
    · exact absurd digit (by decide)
    · exact absurd dot (by decide)
  have split : splitAddr (print (.ipv4 ip port)) =
      some (false, Ipaddr.printAddr ip, Nat.toDigits 10 (ntoh16 port)) :=
    splitAddr_eq_some_iff.mpr (Or.inr ⟨rfl, noColon, noBracket, rfl⟩)
  have addrLength := length_printAddr_le ip
  have portLength := length_toDigits_ntoh16_le port
  have printed : (print (.ipv4 ip port)).length =
      (Ipaddr.printAddr ip).length + (Nat.toDigits 10 (ntoh16 port)).length + 1 := by
    simp only [print, BIPAddr.print, List.length_append, List.length_cons]
    omega
  have fits : (Ipaddr.printAddr ip).length < 128 := by omega
  -- each stage of the reader passes in turn
  unfold parse2
  rw [if_neg (by omega), split]
  simp [not_le.mpr fits, parsePort_toDigits, resolve, numeric, Option.map_eq_bind]

/-- The destination override of `tun2socks.c`, printed and read back with `AI_NUMERICHOST`. -/
theorem parse2_print_ipv4_override :
    parse2 ⟨fun _ text => Ipaddr.parseIpv4Addr text, fun _ _ => none⟩
        (print (.ipv4 #v[10, 111, 0, 2] #v[7, 208])) none true =
      some (.ipv4 #v[10, 111, 0, 2] #v[7, 208], none) :=
  parse2_print_ipv4 _ true none _ _ (Ipaddr.parseIpv4Addr_printAddr _)

/--
A printed IPv6 address never reads back, whatever the resolver: `BAddr_Print`
writes no brackets, so the reader ends the address at the first group and
finds a port text of more than five characters.
-/
theorem parse2_print_ipv6 (resolver : Resolver) (noresolve : Bool) (nameLen : Option Nat)
    (ip : Vector UInt8 16) (port : Vector UInt8 2) :
    parse2 resolver (print (.ipv6 ip port)) nameLen noresolve = none := by
  obtain ⟨g, g', groups, six, printed⟩ := print_ipv6_eq ip port
  have noColon : ':' ∉ hex g := fun member => (not_mem_hex member).1 rfl
  have noBracket : (hex g).head? ≠ some '[' := fun head =>
    (not_mem_hex (List.mem_of_mem_head? head)).2 rfl
  have split : splitAddr (print (.ipv6 ip port)) =
      some (false, hex g, joinHex (g' :: groups) ++ ':' :: Nat.toDigits 10 (ntoh16 port)) :=
    splitAddr_eq_some_iff.mpr (Or.inr ⟨rfl, noColon, noBracket, printed⟩)
  -- the port text holds the seven other groups
  have long : parsePort (joinHex (g' :: groups) ++ ':' :: Nat.toDigits 10 (ntoh16 port)) = none := by
    have := length_joinHex_cons_ge g' groups
    exact parsePort_of_six_le (by simp only [List.length_append, List.length_cons]; omega)
  refine Option.eq_none_iff_forall_ne_some.mpr ?_
  rintro ⟨addr, name⟩ accepted
  obtain ⟨-, -, ipv6, addrStr, portStr, port', split', -, portRead, -⟩ := parse2_eq_some_iff.mp accepted
  rw [split, Option.some.injEq, Prod.mk.injEq, Prod.mk.injEq] at split'
  rw [← split'.2.2, long] at portRead
  simp at portRead

end RoundTrip

end BAddrText

end Tun2SocksWinRT
