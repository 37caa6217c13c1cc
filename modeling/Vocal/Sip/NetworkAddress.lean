import Vocal.Lib.Decimal
import Vocal.Sip.Text
import Vocal.Sip.Text.Number

/-!
# Network addresses

`NetworkAddress::is_valid_ip6_addr`, by which the Via header and the SIP url tell the addresses they
write in brackets. A text with a bracket in it is none.

`NetworkAddress` takes the text of an address or of a host, with a port behind a colon, and looks the host up when it is
asked for its address. There is no result where the source fails an assertion. An IPv4 address is kept in host order.
-/

namespace Vocal.Sip.NetworkAddress

/-- The double colons of an address: whether it has one, or no result where they are misplaced. -/
def doubleColon (addr : Data) : Option Bool :=
  match find [':'] addr with
  | none => some false
  | some pos =>
    if find [':'] (addr.drop (pos + 1)) = none then none
    else
      match find "::".toList addr with
      | none => some false
      | some pos =>
        if pos + 2 = addr.length ∨ find "::".toList (addr.drop (pos + 1)) ≠ none then none else some true

/-- The tokens `strtok` finds between the colons of the first 254 characters. -/
def groups (addr : Data) : List Data := ((addr.take 254).splitOn ':').filter (· ≠ [])

def is_valid_ip6_addr (addr : Data) : Bool :=
  if find ['['] addr ≠ none then false
  else
    match doubleColon addr with
    | none => false
    | some double_colon => double_colon || (groups addr).length = 8

theorem find_singleton_ne_none {c : Char} {d : Data} (hc : c ∈ d) : find [c] d ≠ none := by
  induction d with
  | nil => cases hc
  | cons a d ih =>
    rw [find]
    split
    · simp
    · rename_i hhead
      rcases List.mem_cons.mp hc with rfl | hmem
      · exact absurd (by simp [List.isPrefixOf]) hhead
      · rw [ne_eq, Option.map_eq_none_iff]
        exact ih hmem

theorem is_valid_ip6_addr_of_bracket {addr : Data} (h : '[' ∈ addr) : is_valid_ip6_addr addr = false := by
  rw [is_valid_ip6_addr, if_pos (find_singleton_ne_none h)]

end Vocal.Sip.NetworkAddress

namespace Vocal.Sip

/-! ### Addresses in dots -/

/-- `vtoStringIp`. -/
def vtoStringIp (ip : UInt32) : Data :=
  Data.ofNat (ip.toNat / 2 ^ 24 % 256) ++ '.' :: (Data.ofNat (ip.toNat / 2 ^ 16 % 256) ++
    '.' :: (Data.ofNat (ip.toNat / 2 ^ 8 % 256) ++ '.' :: Data.ofNat (ip.toNat % 256)))

/-- The value of a digit of any base, and one that is too large for what is none. -/
def digitOf (c : Char) : Nat :=
  if isdigit c then digitVal c
  else if 'a' ≤ c ∧ c ≤ 'f' then c.toNat - 'a'.toNat + 10
  else if 'A' ≤ c ∧ c ≤ 'F' then c.toNat - 'A'.toNat + 10
  else 36

/-- The number in front of a text and the rest behind it. -/
def readDigits (base : Nat) : Data → Nat → Nat × Data
  | [], n => (n, [])
  | c :: cs, n => if digitOf c < base then readDigits base cs (base * n + digitOf c) else (n, c :: cs)

/-- `strtoul` for the base 0, of a text that starts with a digit. -/
def readNumber : Data → Nat × Data
  | '0' :: 'x' :: c :: cs => if digitOf c < 16 then readDigits 16 (c :: cs) 0 else (0, 'x' :: c :: cs)
  | '0' :: 'X' :: c :: cs => if digitOf c < 16 then readDigits 16 (c :: cs) 0 else (0, 'X' :: c :: cs)
  | '0' :: cs => readDigits 8 cs 0
  | text => readDigits 10 text 0

/-- The loop of `inet_aton`: at most so many numbers between dots, and the text behind them. -/
def inetParts : Nat → Data → Option (List Nat × Data)
  | 0, _ => none
  | k + 1, text =>
    if (text.head?.map isdigit).getD false then
      match readNumber text with
      | (val, '.' :: rest) =>
        if val > 0xff then none else (inetParts k rest).map fun parts => (val :: parts.1, parts.2)
      | (val, rest) => some ([val], rest)
    else none

/-- The last number fills what the others leave. -/
def inetValue : List Nat → Option Nat
  | [a] => if a ≤ 0xffffffff then some a else none
  | [a, b] => if b ≤ 0xffffff then some (a * 2 ^ 24 + b) else none
  | [a, b, c] => if c ≤ 0xffff then some (a * 2 ^ 24 + b * 2 ^ 16 + c) else none
  | [a, b, c, d] => if d ≤ 0xff then some (a * 2 ^ 24 + b * 2 ^ 16 + c * 2 ^ 8 + d) else none
  | _ => none

/-- `inet_addr`; none is `INADDR_NONE`, which is also the address of all ones. -/
def inet_addr (ip : Data) : Option UInt32 := do
  let parts ← inetParts 4 ip
  if parts.2.head?.all isspace then
    let value ← inetValue parts.1
    if value = 0xffffffff then none else some (.ofNat value)
  else none

/-- What the system knows of hosts. -/
structure NameService where
  gethostbyname : Data → Option UInt32
  localHostName : Data

/-- `vtoIpString`. -/
def NameService.vtoIpString (net : NameService) (ip : Data) : Option UInt32 :=
  if ip = "0.0.0.0".toList ∨ ip = [] then some 0
  else match inet_addr ip with
    | some retval => some retval
    | none => (net.gethostbyname ip).filter (· ≠ 0)

/-! ### Texts that are addresses -/

/-- `strtoul` for the base 10. -/
def strtoul (text : Data) : Nat × Data :=
  let body := text.dropWhile isspace
  let negative := body.head? = some '-'
  let digits := if negative ∨ body.head? = some '+' then body.tail else body
  if (digits.head?.map isdigit).getD false then
    let number := readDigits 10 digits 0
    (if number.1 ≥ 2 ^ 64 then 2 ^ 64 - 1 else if negative then (2 ^ 64 - number.1) % 2 ^ 64 else number.1, number.2)
  else (0, text)

/-- What is behind a field of `is_valid_ip4_addr`. -/
def octetField (nonzero : Bool) (advancer : Data) : Option Data :=
  if advancer = [] ∨ advancer.head? = some ' ' ∨ advancer.head? = some '\t' then none
  else
    let octet := strtoul advancer
    if octet.1 > 255 ∨ (nonzero ∧ octet.1 = 0) then none else some octet.2

def afterDot : Data → Option Data
  | '.' :: rest => some rest
  | _ => none

namespace NetworkAddress

/-- `NetworkAddress::is_valid_ip4_addr`. -/
def is_valid_ip4_addr (addr : Data) : Bool :=
  ((do
    let addr ← afterDot (← octetField true addr)
    let addr ← afterDot (← octetField false addr)
    let addr ← afterDot (← octetField false addr)
    octetField true addr) : Option Data) = some []

def is_valid_ip_addr (addr : Data) : Bool := is_valid_ip4_addr addr || is_valid_ip6_addr addr

end NetworkAddress

open NetworkAddress (is_valid_ip4_addr is_valid_ip6_addr is_valid_ip_addr)

/-! ### The object -/

/-- The fields of `NetworkAddress`, before its host is looked up. -/
structure HostAddress where
  aPort : Int
  hostName : Data := []
  hostIPstring : Data := []
  hostIP : UInt32 := 0
  ipAddressSet : Bool := false
  deriving DecidableEq, Repr

namespace HostAddress

/-- The end of `setHostName`. -/
def setIp (net : NameService) (v6Addr : Bool) (tmpAddr : Data) (a : HostAddress) : HostAddress :=
  if v6Addr || is_valid_ip_addr tmpAddr then
    { a with hostName := [], hostIPstring := tmpAddr, hostIP := (net.vtoIpString tmpAddr).getD 0, ipAddressSet := true }
  else { a with ipAddressSet := false }

/-- The port behind the first colon from a place on. -/
def setPortFrom (hostname : Data) (pos : Nat) (a : HostAddress) : HostAddress :=
  match find [':'] (hostname.drop pos) with
  | some i => { a with aPort := Vocal.atoi 64 (hostname.drop (pos + i + 1)) }
  | none => a

/-- `NetworkAddress::setHostName` with a closing bracket at `pos`. `substr` is given a length that only fits when the
text starts with the opening one. -/
def setBracketed (net : NameService) (hostname : Data) (pos : Nat) (a : HostAddress) : Option HostAddress :=
  match find ['['] hostname with
  | some start =>
    if 0 < pos ∧ start + pos ≤ hostname.length then
      some (setIp net true ((hostname.drop (start + 1)).take (pos - 1))
        (setPortFrom hostname pos { a with hostName := hostname }))
    else none
  | none => some (setIp net false hostname (setPortFrom hostname pos a))

/-- `NetworkAddress::setHostName`. -/
def setHostName (net : NameService) (hostname : Data) (a : HostAddress) : Option HostAddress :=
  match find [']'] hostname with
  | some pos => setBracketed net hostname pos a
  | none =>
    if is_valid_ip6_addr hostname then some (setIp net true hostname a)
    else
      match find [':'] hostname with
      | some pos => some (setIp net false (hostname.take pos) (setPortFrom hostname 0 { a with hostName := hostname.take pos }))
      | none => some (setIp net false hostname { a with hostName := hostname })

/-- The constructor. -/
def new (net : NameService) (hostname : Data) (port : Int) : Option HostAddress :=
  if hostname = [] then some { aPort := port, hostName := net.localHostName }
  else setHostName net hostname { aPort := port }

/-- `NetworkAddress::initIpAddress`. -/
def initIpAddress (net : NameService) (a : HostAddress) : Option HostAddress :=
  if a.ipAddressSet then some a
  else if a.hostName = [] then
    if is_valid_ip4_addr a.hostIPstring then
      some { a with hostIP := (net.vtoIpString a.hostIPstring).getD 0, ipAddressSet := true }
    else none
  else
    let hostIP := (net.vtoIpString a.hostName).getD 0
    some { a with hostIP := hostIP, hostIPstring := vtoStringIp hostIP, ipAddressSet := true }

/-- `NetworkAddress::getIpName`. -/
def getIpName (net : NameService) (a : HostAddress) : Option Data := (initIpAddress net a).map (·.hostIPstring)

/-- `NetworkAddress::getIp4Address`. -/
def getIp4Address (net : NameService) (a : HostAddress) : Option UInt32 := (initIpAddress net a).map (·.hostIP)

end HostAddress

/-! ### Reading what `vtoStringIp` writes -/

variable {base n : Nat} {x rest : Data}

theorem readDigits_append (hx : ∀ c ∈ x, digitOf c < base) (n : Nat) (rest : Data) :
    readDigits base (x ++ rest) n = readDigits base rest (readDigits base x n).1 := by
  induction x generalizing n with
  | nil => rfl
  | cons c x ih =>
    have hc := hx c (List.mem_cons_self ..)
    rw [List.cons_append, readDigits, if_pos hc, readDigits, if_pos hc,
      ih fun b hb => hx b (List.mem_cons_of_mem c hb)]

theorem readDigits_of_head (h : ∀ c ∈ rest.head?, base ≤ digitOf c) (n : Nat) :
    readDigits base rest n = (n, rest) := by
  cases rest with
  | nil => rfl
  | cons c cs => exact if_neg (not_lt.mpr (h c rfl))

theorem digitOf_digitChar : ∀ d < 10, digitOf (Nat.digitChar d) = d := by decide

theorem digitOf_of_mem_ofNat {c : Char} (hc : c ∈ Data.ofNat n) : digitOf c < 10 := by
  have hdigit := Data.isdigit_of_mem_ofNat hc
  rw [isdigit, Bool.and_eq_true, decide_eq_true_eq, decide_eq_true_eq] at hdigit
  have hlow : '0'.toNat ≤ c.toNat := hdigit.1
  have hhigh : c.toNat ≤ '9'.toNat := hdigit.2
  have hchars : '0'.toNat = 48 ∧ '9'.toNat = 57 := ⟨rfl, rfl⟩
  rw [digitOf, if_pos (Data.isdigit_of_mem_ofNat hc), digitVal]
  omega

theorem readDigits_ofNat_fst (n : Nat) : (readDigits 10 (Data.ofNat n) 0).1 = n := by
  induction n using Nat.strong_induction_on with
  | _ n ih =>
    rcases lt_or_ge n 10 with hlt | hle
    · rw [Data.ofNat_of_lt hlt, readDigits, digitOf_digitChar n hlt, if_pos hlt]
      simp [readDigits]
    · have hmod : n % 10 < 10 := Nat.mod_lt n (by decide)
      rw [Data.ofNat_of_le hle, readDigits_append (fun c hc => digitOf_of_mem_ofNat hc), ih (n / 10) (by omega),
        readDigits, digitOf_digitChar _ hmod, if_pos hmod, readDigits]
      omega

theorem readDigits_ofNat (n : Nat) (h : ∀ c ∈ rest.head?, 10 ≤ digitOf c) :
    readDigits 10 (Data.ofNat n ++ rest) 0 = (n, rest) := by
  rw [readDigits_append (fun c hc => digitOf_of_mem_ofNat hc), readDigits_ofNat_fst, readDigits_of_head h]

theorem head_digitChar_ne : ∀ d < 10, 0 < d → Nat.digitChar d ≠ '0' := by decide

theorem exists_ofNat_eq_cons (hn : 0 < n) : ∃ c cs, Data.ofNat n = c :: cs ∧ c ≠ '0' := by
  induction n using Nat.strong_induction_on with
  | _ n ih =>
    rcases lt_or_ge n 10 with hlt | hle
    · exact ⟨_, [], Data.ofNat_of_lt hlt, head_digitChar_ne n hlt hn⟩
    · obtain ⟨c, cs, heq, hc⟩ := ih (n / 10) (by omega) (by omega)
      refine ⟨c, cs ++ [Nat.digitChar (n % 10)], ?_, hc⟩
      rw [Data.ofNat_of_le hle, heq]
      rfl

theorem readNumber_of_ne {c : Char} (hc : c ≠ '0') (cs : Data) : readNumber (c :: cs) = readDigits 10 (c :: cs) 0 := by
  unfold readNumber
  split
  · rename_i heq
    exact absurd (List.cons.inj heq).1 hc
  · rename_i heq
    exact absurd (List.cons.inj heq).1 hc
  · rename_i heq
    exact absurd (List.cons.inj heq).1 hc
  · rfl

/-- What may stand behind a number. -/
def Ends (rest : Data) : Prop := rest = [] ∨ ∃ cs, rest = '.' :: cs

theorem Ends.digitOf_le (h : Ends rest) : ∀ c ∈ rest.head?, 10 ≤ digitOf c := by
  rintro c hc
  rcases h with rfl | ⟨cs, rfl⟩
  · cases hc
  · obtain rfl := Option.some.inj hc
    decide

theorem readNumber_ofNat (n : Nat) (h : Ends rest) : readNumber (Data.ofNat n ++ rest) = (n, rest) := by
  rcases Nat.eq_zero_or_pos n with rfl | hn
  · rcases h with rfl | ⟨cs, rfl⟩
    · rfl
    · rfl
  · obtain ⟨c, cs, heq, hc⟩ := exists_ofNat_eq_cons hn
    rw [heq, List.cons_append, readNumber_of_ne hc, ← List.cons_append, ← heq]
    exact readDigits_ofNat n h.digitOf_le

theorem head?_ofNat (n : Nat) (rest : Data) :
    (((Data.ofNat n ++ rest).head?.map isdigit).getD false) = true := by
  cases heq : Data.ofNat n with
  | nil => exact absurd heq (Data.ofNat_ne_nil n)
  | cons c cs => exact Data.isdigit_of_mem_ofNat (heq ▸ List.mem_cons_self ..)

theorem inetParts_dot {k : Nat} (hn : n ≤ 0xff) (rest : Data) :
    inetParts (k + 1) (Data.ofNat n ++ '.' :: rest) = (inetParts k rest).map fun parts => (n :: parts.1, parts.2) := by
  rw [inetParts, if_pos (head?_ofNat n _), readNumber_ofNat n (Or.inr ⟨rest, rfl⟩)]
  exact if_neg (not_lt.mpr hn)

theorem inetParts_last (k n : Nat) : inetParts (k + 1) (Data.ofNat n) = some ([n], []) := by
  have hhead := head?_ofNat n []
  have hread := readNumber_ofNat n (Or.inl rfl)
  rw [List.append_nil] at hhead hread
  rw [inetParts, if_pos hhead, hread]

theorem toNat_eq_octets (ip : UInt32) :
    ip.toNat / 2 ^ 24 % 256 * 2 ^ 24 + ip.toNat / 2 ^ 16 % 256 * 2 ^ 16 + ip.toNat / 2 ^ 8 % 256 * 2 ^ 8 +
      ip.toNat % 256 = ip.toNat := by
  have hlt : ip.toNat < 2 ^ 32 := ip.toNat_lt
  omega

/-- An address but that of all ones is read back. -/
theorem inet_addr_vtoStringIp {ip : UInt32} (h : ip ≠ 0xffffffff) : inet_addr (vtoStringIp ip) = some ip := by
  have hoctet : ∀ k, k % 256 ≤ 0xff := fun k => by omega
  have hparts : inetParts 4 (vtoStringIp ip) = some ([ip.toNat / 2 ^ 24 % 256, ip.toNat / 2 ^ 16 % 256,
      ip.toNat / 2 ^ 8 % 256, ip.toNat % 256], []) := by
    rw [vtoStringIp, inetParts_dot (hoctet _), inetParts_dot (hoctet _), inetParts_dot (hoctet _), inetParts_last]
    rfl
  have hne : ip.toNat ≠ 0xffffffff := fun heq => h (UInt32.toNat_inj.mp heq)
  simp only [inet_addr, hparts, Option.bind_eq_bind, Option.bind_some, inetValue, if_pos (hoctet _), toNat_eq_octets,
    if_neg hne, UInt32.ofNat_toNat]
  rfl

/-- The system finds a host under its own address in dots. -/
def NameService.Knows (net : NameService) (ip : UInt32) : Prop := net.vtoIpString (vtoStringIp ip) = some ip

theorem NameService.knows_of_ne (net : NameService) {ip : UInt32} (h : ip ≠ 0xffffffff) : net.Knows ip := by
  rw [Knows, vtoIpString, inet_addr_vtoStringIp h]
  split
  · rename_i heq
    rcases heq with heq | heq
    · have hback := inet_addr_vtoStringIp h
      rw [heq] at hback
      exact hback
    · have hback := inet_addr_vtoStringIp h
      rw [heq] at hback
      cases hback
  · rfl

end Vocal.Sip
