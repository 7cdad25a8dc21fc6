-- SUMMARY: Which host an https URL is fetched from, as the WHATWG URL parser reads it.
import OauthAs.Lib.Address

/-!
# The host of a URL

The WHATWG URL parser as far as the host of an `https` URL goes: the states from
the scheme to the port, the host parser, the rule that tells an address from a name, and the many
spellings of a version 4 address. Percent-decoding, the mapping of a name to ASCII and the reading
of version 6 addresses come from elsewhere and are a `Reader`.
-/

namespace OauthAs

namespace Url

variable {c : Char} {text host digits part : List Char} {x : Ipv4}

open Net

inductive Host where
  | domain (name : List Char)
  | ipv4 (address : Nat)
  | ipv6 (address : Ipv6)
deriving DecidableEq, Repr

/-- A name one of whose labels is encoded Unicode. -/
def IsPunycode (name : List Char) : Prop :=
  ∃ label ∈ name.splitOn '.', "xn--".toList <+: label.map Char.toLower

/-- What the host parser relies on, as far as the standard fixes it for plain texts. -/
structure Reader where
  /-- Percent-decoded and read as UTF-8. -/
  decoded : List Char → List Char
  domainToAscii : List Char → Option (List Char)
  ipv6 : List Char → Option Ipv6
  decoded_plain : ∀ text, (∀ c ∈ text, c.toNat < 128 ∧ c ≠ '%') → decoded text = text
  domainToAscii_plain : ∀ name, name ≠ [] → (∀ c ∈ name, c.toNat < 128) → ¬ IsPunycode name →
    domainToAscii name = some (name.map Char.toLower)
  ipv6_colon : ∀ text address, ipv6 text = some address → ':' ∈ text
  ipv6_bracket : ∀ text address, ipv6 text = some address → ']' ∉ text

/-! ## Numbers and version 4 addresses -/

/-- The value of a digit, whatever the radix. -/
def digitValue (c : Char) : Nat :=
  if c.isDigit then c.toNat - 48
  else if 'a' ≤ c ∧ c ≤ 'f' then c.toNat - 87
  else if 'A' ≤ c ∧ c ≤ 'F' then c.toNat - 55
  else 16

def numeral (radix : Nat) (digits : List Char) : Option Nat :=
  if digits.all fun c => digitValue c < radix then
    some (digits.foldl (fun n c => radix * n + digitValue c) 0)
  else none

/-- A part of a version 4 address: hexadecimal after `0x`, octal after `0`, otherwise decimal. -/
def ipv4Number : List Char → Option Nat
  | [] => none
  | '0' :: 'x' :: digits => numeral 16 digits
  | '0' :: 'X' :: digits => numeral 16 digits
  | '0' :: c :: digits => numeral 8 (c :: digits)
  | digits => numeral 10 digits

/-- The parts of a host between dots, without the empty one after a trailing dot. -/
def parts (host : List Char) : List (List Char) :=
  if (host.splitOn '.').getLast? = some [] then (host.splitOn '.').dropLast else host.splitOn '.'

def isNumber (part : List Char) : Bool :=
  (!part.isEmpty && part.all Char.isDigit) || (ipv4Number part).isSome

/-- Whether a host is an address and not a name. -/
def endsInNumber (host : List Char) : Bool := (parts host).getLast?.any isNumber

/-- All parts but the last are octets, the last fills the rest of the address. -/
def ipv4OfNumbers (numbers : List Nat) : Option Nat :=
  match numbers.getLast? with
  | none => none
  | some last =>
    if numbers.length ≤ 4 ∧ (∀ n ∈ numbers.dropLast, n ≤ 255) ∧ last < 256 ^ (5 - numbers.length) then
      some (last + (numbers.dropLast.zipIdx.map fun (n, i) => n * 256 ^ (3 - i)).sum)
    else none

def ipv4 (host : List Char) : Option Nat := do
  ipv4OfNumbers (← (parts host).mapM ipv4Number)

/-! ## Hosts -/

def isForbiddenHost (c : Char) : Bool :=
  "\x00\t\n\r #/:<>?@[\\]^|".toList.contains c

def isForbiddenDomain (c : Char) : Bool :=
  isForbiddenHost c || decide (c.toNat ≤ 0x1F) || c == '%' || decide (c.toNat = 0x7F)

/-- The host parser, for a scheme with a network host. -/
def parseHost (reader : Reader) : List Char → Option Host
  | '[' :: text =>
    if text.getLast? = some ']' then (reader.ipv6 text.dropLast).map .ipv6 else none
  | text => do
    let name ← reader.domainToAscii (reader.decoded text)
    if name.any isForbiddenDomain then none
    else if endsInNumber name then (ipv4 name).map .ipv4
    else some (.domain name)

/-! ## From the scheme to the port -/

/-- Whether the authority ends here. -/
def isTerminator (c : Char) : Bool := c == '/' || c == '?' || c == '#' || c == '\\'

/-- What is between the slashes after the scheme, however many, and the path. -/
def authority (afterScheme : List Char) : List Char :=
  (afterScheme.dropWhile fun c => c == '/' || c == '\\').takeWhile fun c => !isTerminator c

/-- What follows the credentials, if there are any; a host has to follow them. -/
def afterCredentials (authority : List Char) : Option (List Char) :=
  if authority.contains '@' then
    match (authority.reverse.takeWhile (· != '@')).reverse with
    | [] => none
    | rest => some rest
  else some authority

/-- The host state: up to a colon outside brackets. -/
def hostState (insideBrackets : Bool) (buffer : List Char) :
    List Char → Option (List Char × Option (List Char))
  | [] => if buffer = [] then none else some (buffer, none)
  | c :: rest =>
    if c = ':' ∧ insideBrackets = false then
      if buffer = [] then none else some (buffer, some rest)
    else
      hostState (if c = '[' then true else if c = ']' then false else insideBrackets)
        (buffer ++ [c]) rest

def isPort (digits : List Char) : Bool := digits.all Char.isDigit && decide (decimalValue digits < 2 ^ 16)

/-- Control characters and blanks around a URL, and line breaks in it, are not part of it. -/
def cleaned (input : List Char) : List Char :=
  ((((input.dropWhile fun c => decide (c.toNat ≤ 0x20)).reverse).dropWhile
    fun c => decide (c.toNat ≤ 0x20)).reverse).filter fun c => c != '\t' && c != '\n' && c != '\r'

/-- The host of an `https` URL as it is written, if the parser gets that far. -/
def writtenHost (input : List Char) : Option (List Char) :=
  let scheme := (cleaned input).takeWhile (· != ':')
  if scheme.map Char.toLower = "https".toList ∧ (cleaned input).contains ':' then do
    let text ← afterCredentials (authority ((cleaned input).drop (scheme.length + 1)))
    let (host, port) ← hostState false [] text
    if port.all isPort then some host else none
  else none

/-- The host that an `https` URL is fetched from. -/
def fetchedHost (reader : Reader) (input : List Char) : Option Host := do
  parseHost reader (← writtenHost input)

/-! ## Plain texts -/

/-- A property of every ASCII character is checked one by one. -/
theorem ascii_cases {P : Char → Prop} (h : ∀ n < 128, P (Char.ofNat n)) (hc : c.toNat < 128) :
    P c := by
  have hP := h c.toNat hc
  rwa [Char.ofNat_toNat] at hP

theorem cleaned_eq_self {input : List Char} (h : ∀ c ∈ input, 0x20 < c.toNat) :
    cleaned input = input := by
  have hdrop : ∀ text : List Char, (∀ c ∈ text, 0x20 < c.toNat) →
      text.dropWhile (fun c => decide (c.toNat ≤ 0x20)) = text := by
    intro text htext
    cases text with
    | nil => rfl
    | cons c rest =>
      have hc := htext c List.mem_cons_self
      exact List.dropWhile_cons_of_neg (by simp; omega)
  unfold cleaned
  rw [hdrop input h, hdrop _ (fun c hc => h c (List.mem_reverse.mp hc)), List.reverse_reverse]
  refine List.filter_eq_self.mpr fun c hc => ?_
  have hvisible := h c hc
  have ht : c ≠ '\t' := by
    rintro rfl
    exact absurd hvisible (by decide)
  have hn : c ≠ '\n' := by
    rintro rfl
    exact absurd hvisible (by decide)
  have hr : c ≠ '\r' := by
    rintro rfl
    exact absurd hvisible (by decide)
  simp [ht, hn, hr]

/-- The host state takes the text apart and loses nothing. -/
theorem hostState_append {inside : Bool} {buffer : List Char} {port : Option (List Char)}
    (h : hostState inside buffer text = some (host, port)) :
    buffer ++ text = host ++ port.elim [] (':' :: ·) := by
  induction text generalizing inside buffer with
  | nil =>
    unfold hostState at h
    split at h
    · cases h
    · cases h
      rfl
  | cons c rest ih =>
    unfold hostState at h
    split at h
    · rename_i hcolon
      split at h
      · cases h
      · cases h
        simp [hcolon.1]
    · rw [← ih h, List.append_assoc, List.singleton_append]

/-! ## Parts of a host -/

theorem numeral_isSome {radix : Nat} (h : (numeral radix digits).isSome = true) :
    ∀ c ∈ digits, digitValue c < radix := by
  unfold numeral at h
  split at h
  · rename_i hall
    intro c hc
    exact of_decide_eq_true (List.all_eq_true.mp hall c hc)
  · cases h

/-- A part that is a number is hexadecimal, or made of decimal digits. -/
theorem ipv4Number_isSome (h : (ipv4Number part).isSome = true) :
    (∃ digits, part = '0' :: 'x' :: digits ∧ ∀ c ∈ digits, digitValue c < 16) ∨
    (∃ digits, part = '0' :: 'X' :: digits ∧ ∀ c ∈ digits, digitValue c < 16) ∨
    ∀ c ∈ part, digitValue c < 10 := by
  unfold ipv4Number at h
  split at h
  · cases h
  · exact .inl ⟨_, rfl, numeral_isSome h⟩
  · exact .inr (.inl ⟨_, rfl, numeral_isSome h⟩)
  · refine .inr (.inr fun c hc => ?_)
    rcases List.mem_cons.mp hc with rfl | hc
    · decide
    · exact Nat.lt_trans (numeral_isSome h c hc) (by decide)
  · exact .inr (.inr (numeral_isSome h))

theorem mem_intercalate {sep : Char} {all : List (List Char)} (hpart : part ∈ all) (hc : c ∈ part) :
    c ∈ [sep].intercalate all := by
  induction all with
  | nil => cases hpart
  | cons first rest ih =>
    cases rest with
    | nil =>
      cases List.mem_singleton.mp hpart
      simpa [List.intercalate] using hc
    | cons second rest =>
      rw [List.intercalate_cons_cons, List.mem_append, List.mem_append]
      rcases List.mem_cons.mp hpart with rfl | hpart
      · exact .inl (.inl hc)
      · exact .inr (ih hpart)

theorem mem_of_mem_parts (hpart : part ∈ parts host) (hc : c ∈ part) : c ∈ host := by
  have hsplit : part ∈ host.splitOn '.' := by
    unfold parts at hpart
    split at hpart
    · exact List.dropLast_subset _ hpart
    · exact hpart
  have hhost : ['.'].intercalate (host.splitOn '.') = host := List.intercalate_splitOn '.'
  exact hhost ▸ mem_intercalate hsplit hc

theorem intercalate_append_nil (sep : Char) (first : List Char) (rest : List (List Char)) :
    [sep].intercalate (first :: rest ++ [[]]) = [sep].intercalate (first :: rest) ++ [sep] := by
  induction rest generalizing first with
  | nil => simp [List.intercalate]
  | cons second rest ih =>
    have h := ih second
    simp only [List.cons_append, List.intercalate_cons_cons, List.append_assoc] at h ⊢
    rw [h]

/-- An empty last part is what follows a trailing dot. -/
theorem getLast?_splitOn_eq_nil (h : (host.splitOn '.').getLast? = some []) :
    host = [] ∨ host.getLast? = some '.' := by
  obtain ⟨init, hinit⟩ := List.getLast?_eq_some_iff.mp h
  have hhost : host = ['.'].intercalate (init ++ [[]]) := by
    rw [← hinit, List.intercalate_splitOn]
  cases init with
  | nil => exact .inl (hhost.trans rfl)
  | cons first rest =>
    rw [intercalate_append_nil] at hhost
    exact .inr (by rw [hhost, List.getLast?_concat])

/-- Dropping a trailing dot drops the empty part after it. -/
theorem parts_eq (hne : host ≠ []) :
    parts host = (if host.getLast? = some '.' then host.dropLast else host).splitOn '.' := by
  unfold parts
  split
  · rename_i hdot
    obtain ⟨init, rfl⟩ := List.getLast?_eq_some_iff.mp
      ((getLast?_splitOn_eq_nil hdot).resolve_left hne)
    rw [if_pos (List.getLast?_concat ..), List.dropLast_concat, List.splitOn_append_cons_self,
      List.splitOn_nil, List.dropLast_concat]
  · rename_i hnot
    rw [if_neg]
    intro hdot
    obtain ⟨init, rfl⟩ := List.getLast?_eq_some_iff.mp hdot
    rw [List.splitOn_append_cons_self, List.splitOn_nil, List.getLast?_concat] at hnot
    exact hnot rfl

/-! ## Letter case -/

theorem toLower_eq_dot (hc : c.toNat < 128) : c.toLower = '.' ↔ c = '.' :=
  ascii_cases (P := fun c => c.toLower = '.' ↔ c = '.') (by decide) hc

theorem splitOn_map_toLower (h : ∀ c ∈ text, c.toNat < 128) :
    (text.map Char.toLower).splitOn '.' = (text.splitOn '.').map (List.map Char.toLower) := by
  induction text with
  | nil => rfl
  | cons c rest ih =>
    have hc := h c List.mem_cons_self
    have hrest := ih fun d hd => h d (List.mem_cons_of_mem _ hd)
    rw [List.map_cons, List.splitOn_cons_eq_if_modifyHead, List.splitOn_cons_eq_if_modifyHead, hrest]
    simp only [beq_iff_eq, toLower_eq_dot hc]
    split
    · rfl
    · cases rest.splitOn '.' <;> rfl

theorem parts_map_toLower (h : ∀ c ∈ host, c.toNat < 128) :
    parts (host.map Char.toLower) = (parts host).map (List.map Char.toLower) := by
  unfold parts
  rw [splitOn_map_toLower h]
  have hlast : ((host.splitOn '.').map (List.map Char.toLower)).getLast? = some [] ↔
      (host.splitOn '.').getLast? = some [] := by
    rw [List.getLast?_map, Option.map_eq_some_iff]
    simp
  by_cases hdot : (host.splitOn '.').getLast? = some []
  · rw [if_pos hdot, if_pos (hlast.mpr hdot), List.map_dropLast]
  · rw [if_neg hdot, if_neg (mt hlast.mp hdot)]

/-! ## Dotted addresses -/

theorem digitValue_of_isDigit (h : c.isDigit = true) : digitValue c = c.toNat - 48 :=
  if_pos h

theorem isDigit_bounds (h : c.isDigit = true) : 48 ≤ c.toNat ∧ c.toNat ≤ 57 := by
  simp only [Char.isDigit, Bool.and_eq_true, decide_eq_true_eq] at h
  exact h

theorem numeral_decimal (h : ∀ c ∈ digits, c.isDigit = true) :
    numeral 10 digits = some (decimalValue digits) := by
  have hvalues : ∀ n, digits.foldl (fun n c => 10 * n + digitValue c) n =
      digits.foldl (fun n c => 10 * n + (c.toNat - 48)) n := by
    induction digits with
    | nil => exact fun _ => rfl
    | cons c rest ih =>
      intro n
      rw [List.foldl_cons, List.foldl_cons, digitValue_of_isDigit (h c List.mem_cons_self)]
      exact ih (fun d hd => h d (List.mem_cons_of_mem _ hd)) _
  unfold numeral
  rw [if_pos, hvalues]
  · rfl
  · refine List.all_eq_true.mpr fun c hc => ?_
    have hbounds := isDigit_bounds (h c hc)
    rw [decide_eq_true_eq, digitValue_of_isDigit (h c hc)]
    omega

/-- An octet means the same to both readings: without a leading zero it is decimal. -/
theorem ipv4Number_of_octet {n : UInt8} (h : octet digits = some n) :
    ipv4Number digits = some n.toNat := by
  obtain ⟨hne, hall, hzero, hvalue⟩ := octet_eq_some h
  rw [← hvalue, ← numeral_decimal hall]
  unfold ipv4Number
  split
  · exact absurd rfl hne
  · exact absurd (hzero rfl) (by simp)
  · exact absurd (hzero rfl) (by simp)
  · exact absurd (hzero rfl) (by simp)
  · rfl

theorem splitOn_of_fromStr (h : Ipv4.fromStr text = some x) :
    ∃ a b c d, text.splitOn '.' = [a, b, c, d] ∧ octet a = some x.a ∧ octet b = some x.b ∧
      octet c = some x.c ∧ octet d = some x.d := by
  unfold Ipv4.fromStr at h
  split at h
  · rename_i a b c d hsplit
    simp only [bind, pure, Option.bind_eq_some_iff, Option.some.injEq] at h
    obtain ⟨na, ha, nb, hb, nc, hc, nd, hd, rfl⟩ := h
    exact ⟨a, b, c, d, hsplit, ha, hb, hc, hd⟩
  · cases h

theorem parts_of_fromStr (h : Ipv4.fromStr text = some x) :
    ∃ a b c d, parts text = [a, b, c, d] ∧ octet a = some x.a ∧ octet b = some x.b ∧
      octet c = some x.c ∧ octet d = some x.d := by
  obtain ⟨a, b, c, d, hsplit, ha, hb, hc, hd⟩ := splitOn_of_fromStr h
  have hne := (octet_eq_some hd).1
  refine ⟨a, b, c, d, ?_, ha, hb, hc, hd⟩
  rw [parts, hsplit, if_neg]
  simpa using hne

/-- The dotted spelling is read as the address it spells. -/
theorem ipv4_of_fromStr (h : Ipv4.fromStr text = some x) : ipv4 text = some x.toNat := by
  obtain ⟨a, b, c, d, hparts, ha, hb, hc, hd⟩ := parts_of_fromStr h
  have hnumbers : (parts text).mapM ipv4Number =
      some [x.a.toNat, x.b.toNat, x.c.toNat, x.d.toNat] := by
    simp [hparts, ipv4Number_of_octet ha, ipv4Number_of_octet hb, ipv4Number_of_octet hc,
      ipv4Number_of_octet hd]
  have hla := x.a.toNat_lt
  have hlb := x.b.toNat_lt
  have hlc := x.c.toNat_lt
  have hld := x.d.toNat_lt
  have hbounds : ∀ n ∈ [x.a.toNat, x.b.toNat, x.c.toNat], n ≤ 255 := by
    intro n hn
    simp only [List.mem_cons, List.not_mem_nil, or_false] at hn
    omega
  rw [ipv4, hnumbers]
  change ipv4OfNumbers [x.a.toNat, x.b.toNat, x.c.toNat, x.d.toNat] = some x.toNat
  unfold ipv4OfNumbers
  rw [List.getLast?_cons_cons, List.getLast?_cons_cons, List.getLast?_cons_cons, List.getLast?_singleton]
  dsimp only
  rw [if_pos ⟨Nat.le_refl 4, hbounds, hld⟩]
  simp [Ipv4.toNat, List.zipIdx]
  omega

theorem endsInNumber_of_fromStr (h : Ipv4.fromStr text = some x) : endsInNumber text = true := by
  obtain ⟨a, b, c, d, hparts, -, -, -, hd⟩ := parts_of_fromStr h
  simp [endsInNumber, isNumber, hparts, ipv4Number_of_octet hd]

/-- There is nothing but digits and dots in the dotted spelling. -/
theorem mem_of_fromStr (h : Ipv4.fromStr text = some x) (hc : c ∈ text) :
    c.isDigit = true ∨ c = '.' := by
  obtain ⟨p, q, r, s, hsplit, hp, hq, hr, hs⟩ := splitOn_of_fromStr h
  have htext : text = ['.'].intercalate [p, q, r, s] := by
    rw [← hsplit, List.intercalate_splitOn]
  rw [htext] at hc
  simp only [List.intercalate, List.intersperse_cons_cons, List.intersperse_singleton,
    List.flatten_cons, List.flatten_nil, List.mem_append, List.mem_singleton, List.append_nil] at hc
  rcases hc with hc | hc | hc | hc | hc | hc | hc
  · exact .inl ((octet_eq_some hp).2.1 c hc)
  · exact .inr hc
  · exact .inl ((octet_eq_some hq).2.1 c hc)
  · exact .inr hc
  · exact .inl ((octet_eq_some hr).2.1 c hc)
  · exact .inr hc
  · exact .inl ((octet_eq_some hs).2.1 c hc)

theorem map_toLower_of_fromStr (h : Ipv4.fromStr text = some x) : text.map Char.toLower = text := by
  refine (List.map_congr_left fun c hc => ?_).trans (List.map_id text)
  rcases mem_of_fromStr h hc with hdigit | rfl
  · have hascii : c.toNat < 128 := by
      have hbounds := isDigit_bounds hdigit
      omega
    exact ascii_cases (P := fun c => c.isDigit = true → c.toLower = id c) (by decide) hascii hdigit
  · rfl

theorem colon_not_mem_of_fromStr (h : Ipv4.fromStr text = some x) : ':' ∉ text := by
  intro hcolon
  rcases mem_of_fromStr h hcolon with hc | hc
  · revert hc
    decide
  · revert hc
    decide

/-! ## What was written -/

theorem hostState_ne_nil {inside : Bool} {buffer : List Char} {port : Option (List Char)}
    (h : hostState inside buffer text = some (host, port)) : host ≠ [] := by
  induction text generalizing inside buffer with
  | nil =>
    unfold hostState at h
    split at h
    · cases h
    · cases h
      assumption
  | cons c rest ih =>
    unfold hostState at h
    split at h
    · split at h
      · cases h
      · cases h
        assumption
    · exact ih h

/-- The parser gets to the host of a plain URL without changing anything. -/
theorem writtenHost_plain {rest written : List Char} (hvisible : ∀ c ∈ rest, 0x20 < c.toNat)
    (hslash : ∀ c ∈ rest.head?, c ≠ '/' ∧ c ≠ '\\')
    (hat : '@' ∉ rest.takeWhile fun c => !isTerminator c)
    (h : writtenHost ("https://".toList ++ rest) = some written) :
    written ≠ [] ∧ ∃ port : Option (List Char),
      (rest.takeWhile fun c => !isTerminator c) = written ++ port.elim [] (':' :: ·) := by
  have hscheme : ∀ c ∈ "https://".toList, 0x20 < c.toNat := by simp
  have hclean : cleaned ("https://".toList ++ rest) = "https://".toList ++ rest :=
    cleaned_eq_self fun c hc => (List.mem_append.mp hc).elim (hscheme c) (hvisible c)
  have hauthority : authority ('/' :: '/' :: rest) = rest.takeWhile fun c => !isTerminator c := by
    unfold authority
    rw [List.dropWhile_cons_of_pos rfl, List.dropWhile_cons_of_pos rfl]
    congr 1
    cases rest with
    | nil => rfl
    | cons c rest => exact List.dropWhile_cons_of_neg (by simpa using hslash c rfl)
  unfold writtenHost at h
  rw [hclean] at h
  change (if _ then Option.bind (afterCredentials (authority ('/' :: '/' :: rest))) _ else none) = _ at h
  split at h
  · rw [hauthority, afterCredentials, if_neg (by simpa using hat)] at h
    simp only [Option.bind_some, bind, Option.bind_eq_some_iff] at h
    obtain ⟨⟨host, port⟩, hstate, hport⟩ := h
    split at hport
    · cases hport
      exact ⟨hostState_ne_nil hstate, port, (hostState_append hstate).symm ▸ rfl⟩
    · cases hport
  · cases h

/-- A host is read between brackets, or as a name that may turn out to be a number. -/
theorem parseHost_eq_some {reader : Reader} {host : Host} (h : parseHost reader text = some host) :
    (∃ inner x, text = '[' :: inner ∧ inner.getLast? = some ']' ∧
      reader.ipv6 inner.dropLast = some x ∧ host = .ipv6 x) ∨
    (text.head? ≠ some '[' ∧ ∃ name, reader.domainToAscii (reader.decoded text) = some name ∧
      (∀ c ∈ name, isForbiddenDomain c = false) ∧
      ((endsInNumber name = true ∧ ∃ n, ipv4 name = some n ∧ host = .ipv4 n) ∨
        (endsInNumber name = false ∧ host = .domain name))) := by
  unfold parseHost at h
  split at h
  · rename_i inner
    split at h
    · rename_i hlast
      obtain ⟨x, hread, rfl⟩ := Option.map_eq_some_iff.mp h
      exact .inl ⟨inner, x, rfl, hlast, hread, rfl⟩
    · cases h
  · rename_i hbracket
    refine .inr ⟨?_, ?_⟩
    · intro hhead
      obtain ⟨rest, rfl⟩ := List.head?_eq_some_iff.mp hhead
      exact hbracket rest rfl
    obtain ⟨name, hname, h⟩ := Option.bind_eq_some_iff.mp h
    refine ⟨name, hname, ?_⟩
    split at h
    · cases h
    rename_i hforbidden
    refine ⟨by simpa using hforbidden, ?_⟩
    split at h
    · rename_i hnumber
      obtain ⟨n, hn, rfl⟩ := Option.map_eq_some_iff.mp h
      exact .inl ⟨hnumber, n, hn, rfl⟩
    · rename_i hnumber
      cases h
      exact .inr ⟨by simpa using hnumber, rfl⟩

end Url

end OauthAs
