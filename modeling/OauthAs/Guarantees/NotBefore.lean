-- SUMMARY: Client assertions that are not good yet: which spellings of the start dates are noticed.
import Mathlib.Algebra.Order.Ring.Unbundled.Rat
import Mathlib.Data.List.TakeWhile
import OauthAs.Server.Proof

/-!
# Assertions from the future

An assertion may say from when on it is good, and when it was made. The dates are read as unsigned
integers of 64 bits, and what is not written as one is taken for absent, so a date with a fraction,
an exponent or too many digits, and a date that is no number, are not checked at all.
-/

namespace OauthAs

variable {n : Nat} {now ceiling : SystemTime}

/-! ## Numerals -/

def digits? (cs : List Char) : Option Nat :=
  if cs ≠ [] ∧ cs.all Char.isDigit then some (decimal cs) else none

def exponent? : List Char → Option Int
  | [] => some 0
  | e :: cs =>
    if e = 'e' ∨ e = 'E' then
      match cs with
      | '-' :: cs => (digits? cs).map fun n => -(n : Int)
      | '+' :: cs => (digits? cs).map fun n => (n : Int)
      | cs => (digits? cs).map fun n => (n : Int)
    else none

def scale (mantissa : Nat) (exponent : Int) : Rat :=
  if 0 ≤ exponent then mantissa * 10 ^ exponent.toNat else mantissa / 10 ^ (-exponent).toNat

/-- The digits after the point, and what follows them. -/
def fraction : List Char → List Char × List Char
  | '.' :: cs => (cs.takeWhile Char.isDigit, cs.dropWhile Char.isDigit)
  | cs => ([], cs)

def unsigned? (cs : List Char) : Option Rat :=
  let whole := cs.takeWhile Char.isDigit
  let (part, rest) := fraction (cs.dropWhile Char.isDigit)
  if whole = [] then none
  else (exponent? rest).map fun e => scale (decimal (whole ++ part)) (e - part.length)

/-- The value of a JSON number. -/
def numeral? (text : String) : Option Rat :=
  match text.toList with
  | '-' :: cs => (unsigned? cs).map fun value => -value
  | cs => unsigned? cs

example : numeral? "-12.5e-1" = some (-5 / 4) := by decide +kernel

theorem unsigned_digits {cs : List Char} (hne : cs ≠ []) (h : cs.all Char.isDigit) :
    unsigned? cs = some (decimal cs : Rat) := by
  have hwhole : cs.takeWhile Char.isDigit = cs :=
    List.takeWhile_eq_self_iff.mpr (List.all_eq_true.mp h)
  have hrest : cs.dropWhile Char.isDigit = [] :=
    List.dropWhile_eq_nil_iff.mpr (List.all_eq_true.mp h)
  simp [unsigned?, hwhole, hrest, fraction, hne, exponent?, scale]

/-- What is read as an integer is worth that integer. -/
theorem numeral_of_parseU64 {text : String} (h : parseU64 text = some n) :
    numeral? text = some (n : Rat) := by
  unfold parseU64 at h
  split at h
  · rename_i hdigits
    cases h
    rw [Bool.and_eq_true, Bool.and_eq_true] at hdigits
    have hne : text.toList ≠ [] := by
      intro h
      have hempty : text = "" := String.toList_inj.mp h
      rw [hempty] at hdigits
      cases hdigits.1.1
    have hall := hdigits.1.2
    unfold numeral?
    split
    · rename_i cs hcs
      rw [hcs] at hall
      cases hall
    · exact unsigned_digits hne hall
  · cases h

theorem parseU64_toString (h : n < 2 ^ 64) : parseU64 (toString n) = some n := by
  have hlist : (toString n).toList = Nat.toDigits 10 n := by
    rw [Nat.toString_eq_ofList_toDigits, String.toList_ofList]
  have hvalue : decimal (Nat.toDigits 10 n) = n := Nat.ofDigitChars_toDigits (by decide) (by decide)
  have hdigits : (Nat.toDigits 10 n).all Char.isDigit :=
    List.all_eq_true.mpr fun c => Nat.isDigit_of_mem_toDigits (by decide) (by decide)
  have hne : (toString n).isEmpty = false := by
    rw [Bool.eq_false_iff]
    intro hempty
    have := String.isEmpty_iff.mp hempty
    rw [this] at hlist
    exact Nat.toDigits_ne_nil hlist.symm
  rw [parseU64, hlist, hvalue, hdigits, hne, decide_eq_true h]
  rfl

/-! ## Dates -/

/-- A date later than the clock and the leeway allow, or no date at all. -/
def LateAt (now : SystemTime) : Option Json → Prop
  | none => False
  | some (.number text) => ∃ secs, numeral? text = some secs ∧
      ((now + clockSkewLeeway : Int) : Rat) < secs * 1000000000
  | some _ => True

/-- A date written as an unsigned integer of 64 bits. -/
def Readable (date : Option Json) : Prop := (date.bind Json.asU64).isSome

instance decidableReadable (date : Option Json) : Decidable (Readable date) :=
  inferInstanceAs (Decidable ((date.bind Json.asU64).isSome = true))

theorem lateAt_iff {date : Option Json} (h : date.bind Json.asU64 = some n) :
    LateAt now date ↔ now + clockSkewLeeway < Duration.fromSecs n := by
  obtain ⟨json, rfl, hjson⟩ := Option.bind_eq_some_iff.mp h
  cases json with
  | number text =>
    have hvalue : numeral? text = some (n : Rat) := numeral_of_parseU64 hjson
    have hcast : (((now + clockSkewLeeway : Int) : Rat) < (n : Rat) * 1000000000) ↔
        now + clockSkewLeeway < Duration.fromSecs n := by
      rw [Duration.fromSecs]
      exact_mod_cast Iff.rfl
    rw [← hcast, LateAt]
    constructor
    · rintro ⟨secs, hsecs, hlate⟩
      cases hvalue.symm.trans hsecs
      exact hlate
    · exact fun hlate => ⟨n, hvalue, hlate⟩
  | null | bool b | string text | array elements | object members => cases hjson

/-- One date passes unless it can be read and is late. -/
theorem date_passes_iff (hclock : now + clockSkewLeeway ≤ ceiling) (date : Option Json) :
    ((date.bind Json.asU64).all fun value => (numericInstant ceiling value).any fun instant =>
      decide (instant ≤ now + clockSkewLeeway)) = true ↔ ¬ (Readable date ∧ LateAt now date) := by
  cases hdate : date.bind Json.asU64 with
  | none => simp [Readable, hdate]
  | some n =>
    rw [lateAt_iff hdate]
    simp only [Readable, hdate, Option.isSome_some, true_and, Option.all_some, Int.not_lt,
      numericInstant, SystemTime.checkedAdd, unixEpoch, Int.zero_add]
    split
    · simp
    · simp only [Option.any_none, Bool.false_eq_true, false_iff, Int.not_le]
      lia

/-- Both dates pass exactly if neither can be read and is late. -/
theorem assertionStarted_iff (hclock : now + clockSkewLeeway ≤ ceiling) (jws : CompactJws) :
    assertionStarted ceiling jws now = true ↔
      ¬ (Readable (jws.payload.get? "nbf") ∧ LateAt now (jws.payload.get? "nbf")) ∧
        ¬ (Readable (jws.payload.get? "iat") ∧ LateAt now (jws.payload.get? "iat")) := by
  rw [← date_passes_iff hclock, ← date_passes_iff hclock, assertionStarted,
    SystemTime.checkedAdd, if_pos hclock]
  simp only [List.all_cons, List.all_nil, Bool.and_true, Bool.and_eq_true]
  rfl

/-! ## Assertions -/

/-- There is an expiry that an assertion may have now. -/
def Current (ceiling now : SystemTime) : Prop :=
  now + maxAssertionLifetime ≤ ceiling ∧
    ∃ exp < 2 ^ 64, now < Duration.fromSecs exp ∧ Duration.fromSecs exp ≤ now + maxAssertionLifetime

theorem current_of_assertionWindow {expiresAt : SystemTime} {jws : CompactJws}
    (h : assertionWindow ceiling jws now = .ok expiresAt) : Current ceiling now := by
  unfold assertionWindow at h
  split at h
  · cases h
  · rename_i instant hinstant
    obtain ⟨exp, hexp, hnumeric⟩ := Option.bind_eq_some_iff.mp hinstant
    obtain ⟨-, rfl⟩ := checkedAdd_eq_some.mp hnumeric
    split at h
    · cases h
    · split at h
      · cases h
      · rename_i latest hlatest
        obtain ⟨hclock, rfl⟩ := checkedAdd_eq_some.mp hlatest
        split at h
        · cases h
        · refine ⟨hclock, exp, ?_, ?_, ?_⟩
          · obtain ⟨json, -, hjson⟩ := Option.bind_eq_some_iff.mp hexp
            cases json with
            | number text =>
              simp only [Json.asU64, parseU64] at hjson
              split at hjson
              · rename_i hread
                cases hjson
                exact of_decide_eq_true (Bool.and_eq_true_iff.mp hread).2
              · cases hjson
            | _ => cases hjson
          · unfold unixEpoch at *
            lia
          · unfold unixEpoch at *
            lia

/-- An assertion with given dates that is good otherwise. -/
structure Drawn where
  exp : Nat
  nbf : Option Json
  iat : Option Json

namespace Drawn

def optional (name : String) (value : Option Json) (rest : JsonObject) : JsonObject :=
  match value with
  | some json => .cons name json rest
  | none => rest

def header : JsonObject := .cons "alg" (.string "HS256") .nil

def claims (d : Drawn) : JsonObject :=
  .cons "iss" (.string "app") (.cons "sub" (.string "app") (.cons "aud" (.string "as")
    (.cons "jti" (.string "jti") (.cons "exp" (.number (toString d.exp))
      (optional "nbf" d.nbf (optional "iat" d.iat .nil))))))

/-- A backend that reads the one token and takes every signature for good. -/
def backend (d : Drawn) : JwsBackend :=
  { JwsBackend.none with
    base64Url segment := some (segment.toList.map fun c => c.toNat.toUInt8)
    parseJson octets := some (.object (if octets = [104] then header else d.claims))
    hs256 _ _ _ := true }

def token : String := "h.c.s"

def jws (d : Drawn) : CompactJws := ⟨"h.c", header, d.claims, [115]⟩

theorem parse_token (d : Drawn) : CompactJws.parse d.backend token = some d.jws := by
  have hsegments : segments '.' token = ["h", "c", "s"] := by decide +kernel
  rw [CompactJws.parse, hsegments]
  rfl

theorem get_nbf (d : Drawn) : d.jws.payload.get? "nbf" = d.nbf := by
  cases hnbf : d.nbf <;> cases hiat : d.iat <;>
    simp [jws, claims, optional, hnbf, hiat, JsonObject.get?]

theorem get_iat (d : Drawn) : d.jws.payload.get? "iat" = d.iat := by
  cases hnbf : d.nbf <;> cases hiat : d.iat <;>
    simp [jws, claims, optional, hnbf, hiat, JsonObject.get?]

theorem window (d : Drawn) (hexp : d.exp < 2 ^ 64) (hclock : now + maxAssertionLifetime ≤ ceiling)
    (hlater : now < Duration.fromSecs d.exp)
    (hlatest : Duration.fromSecs d.exp ≤ now + maxAssertionLifetime) :
    assertionWindow ceiling d.jws now = .ok (Duration.fromSecs d.exp) := by
  have hread : d.jws.claimTime "exp" = some d.exp := parseU64_toString hexp
  have hinstant : numericInstant ceiling d.exp = some (Duration.fromSecs d.exp : Int) :=
    checkedAdd_eq_some.mpr (by unfold unixEpoch; lia)
  rw [assertionWindow, hread, Option.bind_some, hinstant]
  simp only [SystemTime.checkedAdd, if_pos hclock]
  rw [if_neg (Int.not_le.mpr hlater), if_neg (Int.not_lt.mpr hlatest)]

theorem accepted (d : Drawn) {expiresAt : SystemTime}
    (hwindow : assertionWindow ceiling d.jws now = .ok expiresAt)
    (hstarted : assertionStarted ceiling d.jws now = true) :
    verifyAssertion d.backend ceiling (.exactly "as") (.clientSecret "secret") token "app" now =
      .ok ⟨"jti", expiresAt⟩ := by
  refine verifyAssertion_eq_ok.mpr ⟨d.jws, d.parse_token, ?_⟩
  refine ⟨by decide +kernel, fun typ h => ?_, rfl, rfl, rfl, rfl, rfl, rfl, hwindow, hstarted, rfl⟩
  cases h

end Drawn

/-- No assertion with late dates is accepted exactly if one of the late ones can be read, as long as
an assertion can be accepted at all. -/
theorem late_refused_iff (ceiling now : SystemTime) (nbf iat : Option Json) :
    (∀ b rule keys assertion clientId jws v, CompactJws.parse b assertion = some jws →
      jws.payload.get? "nbf" = nbf → jws.payload.get? "iat" = iat →
        verifyAssertion b ceiling rule keys assertion clientId now = .ok v →
          ¬ LateAt now nbf ∧ ¬ LateAt now iat) ↔
      (Current ceiling now → LateAt now nbf ∨ LateAt now iat →
        Readable nbf ∧ LateAt now nbf ∨ Readable iat ∧ LateAt now iat) := by
  constructor
  · rintro h ⟨hclock, exp, hexp, hlater, hlatest⟩ hlate
    refine Classical.byContradiction fun hunread => ?_
    rw [not_or] at hunread
    let d : Drawn := ⟨exp, nbf, iat⟩
    have hleeway : now + clockSkewLeeway ≤ ceiling :=
      Int.le_trans (Int.add_le_add_left (by decide) now) hclock
    have hstarted : assertionStarted ceiling d.jws now = true := by
      rw [assertionStarted_iff hleeway, d.get_nbf, d.get_iat]
      exact hunread
    obtain ⟨hnbf, hiat⟩ := h _ _ _ _ _ _ _ d.parse_token d.get_nbf d.get_iat
      (d.accepted (d.window hexp hclock hlater hlatest) hstarted)
    exact hlate.elim hnbf hiat
  · rintro h b rule keys assertion clientId jws v hjws rfl rfl hok
    obtain ⟨jws', hjws', haccepted⟩ := verifyAssertion_eq_ok.mp hok
    cases hjws.symm.trans hjws'
    have hcurrent := current_of_assertionWindow haccepted.window
    have hleeway : now + clockSkewLeeway ≤ ceiling :=
      Int.le_trans (Int.add_le_add_left (by decide) now) hcurrent.1
    obtain ⟨hnbf, hiat⟩ := (assertionStarted_iff hleeway jws).mp haccepted.started
    rw [← not_or]
    exact fun hlate => (h hcurrent hlate).elim hnbf hiat

/-- Written with an exponent, a start in the far future is not noticed. -/
theorem late_assertion_accepted :
    LateAt 0 (some (.number "1e12")) ∧
      (Drawn.jws ⟨300, some (.number "1e12"), none⟩).payload.get? "nbf" = some (.number "1e12") ∧
      CompactJws.parse (Drawn.backend ⟨300, some (.number "1e12"), none⟩) Drawn.token =
        some (Drawn.jws ⟨300, some (.number "1e12"), none⟩) ∧
      verifyAssertion (Drawn.backend ⟨300, some (.number "1e12"), none⟩) (Duration.fromSecs 600)
        (.exactly "as") (.clientSecret "secret") Drawn.token "app" 0 =
        .ok ⟨"jti", Duration.fromSecs 300⟩ := by
  have hunread : ¬ Readable (some (.number "1e12")) := by decide +kernel
  let d : Drawn := ⟨300, some (.number "1e12"), none⟩
  refine ⟨⟨_, rfl, by decide +kernel⟩, d.get_nbf, d.parse_token, d.accepted ?_ ?_⟩
  · exact d.window (show 300 < 2 ^ 64 by decide) (by decide)
      (show 0 < (Duration.fromSecs 300 : Int) by decide)
      (show (Duration.fromSecs 300 : Int) ≤ 0 + maxAssertionLifetime by decide)
  · rw [assertionStarted_iff (by decide), d.get_nbf, d.get_iat]
    exact ⟨fun h => hunread h.1, fun h => h.2⟩

end OauthAs
