-- SUMMARY: The algorithms the metadata lists are the ones a verifier resolves for; one method is listed too often.
import OauthAs.Server.Metadata

/-!
# What is advertised is accepted

Two computations decide about an algorithm. The document is built from the configuration and then
completed for every algorithm a verifier resolves for; a signature is checked with the verifier
that resolves when it arrives. Both come down to one condition: the allow-list admits the
algorithm, and the host installed a verifier for it or the build has one. The method
`private_key_jwt` escapes it, because the configuration alone adds it in a build that can check
ES256, whatever the allow-list says.
-/

namespace OauthAs

/-! ## Names -/

theorem classifyAlg_joseName (alg : JwsAlg) : classifyAlg alg.joseName = some alg := by
  cases alg <;> decide

theorem JwsAlg.joseName_injective : Function.Injective JwsAlg.joseName := by
  intro a b h
  have hclass := congrArg classifyAlg h
  rw [classifyAlg_joseName, classifyAlg_joseName] at hclass
  exact Option.some.inj hclass

theorem JwsAlg.mem_all (alg : JwsAlg) : alg ∈ JwsAlg.all := by
  cases alg <;> decide

theorem joseName_mem_baselineAlgs {names : List String} {allow : AlgAllowList} {alg : JwsAlg} :
    alg.joseName ∈ baselineAlgs names allow ↔ alg.joseName ∈ names ∧ allow.isAllowed alg = true := by
  rw [baselineAlgs, List.mem_filter, classifyAlg_joseName, Option.all_some]

/-! ## Resolving a verifier -/

/-- The algorithms a build can check by itself. -/
def Build.backs (build : Build) : JwsAlg → Bool
  | .es256 => build.jwtP256
  | .rs256 | .ps256 => build.jwtRsa
  | .edDsa => build.jwtEd25519

namespace Deployment

variable {d : Deployment}

/-- The host installed a verifier for the algorithm, or the build has one. -/
def HasVerifier (d : Deployment) (alg : JwsAlg) : Prop :=
  (d.jwsVerifiers.bind fun vs => vs.get alg).isSome = true ∨ d.build.backs alg = true

/-- The server checks signatures of this algorithm. -/
def Checks (d : Deployment) (alg : JwsAlg) : Prop :=
  d.config.jwsAlgAllowList.isAllowed alg = true ∧ d.HasVerifier alg

theorem jwsVerifier_isSome {alg : JwsAlg} : (d.jwsVerifier alg).isSome = true ↔ d.Checks alg := by
  unfold jwsVerifier Checks HasVerifier
  cases hallowed : d.config.jwsAlgAllowList.isAllowed alg with
  | false => simp
  | true =>
    cases hinstalled : d.jwsVerifiers.bind fun vs => vs.get alg with
    | some v => simp
    | none => cases alg <;> simp [Build.backs]

theorem get_fallback (compiled : Bool) (v : JwsVerifier) (vs : JwsVerifiers) (alg : JwsAlg) :
    ((fallback compiled v vs).get alg).isSome = true ↔
      (vs.get alg).isSome = true ∨ (compiled = true ∧ alg = v.alg) := by
  unfold fallback
  split
  · rename_i h
    simp only [Bool.and_eq_true] at h
    by_cases heq : alg = v.alg
    · simp [JwsVerifiers.install, JwsVerifiers.get, heq, h.1]
    · simp [JwsVerifiers.install, JwsVerifiers.get, heq]
  · rename_i h
    simp only [Bool.and_eq_true, not_and, Bool.not_eq_true, Option.isNone_eq_false_iff] at h
    constructor
    · exact Or.inl
    · rintro (h' | ⟨hcompiled, rfl⟩)
      · exact h'
      · exact h hcompiled

theorem resolvedJwsVerifiers_isSome {alg : JwsAlg} :
    (d.resolvedJwsVerifiers.get alg).isSome = true ↔ d.Checks alg := by
  have hhost : ((d.jwsVerifiers.getD .new).get alg).isSome = true ↔
      (d.jwsVerifiers.bind fun vs => vs.get alg).isSome = true := by
    cases d.jwsVerifiers <;> rfl
  have hrestrict : ∀ vs : JwsVerifiers,
      ((vs.restrictTo d.config.jwsAlgAllowList).get alg).isSome = true ↔
        d.config.jwsAlgAllowList.isAllowed alg = true ∧ (vs.get alg).isSome = true := by
    intro vs
    cases h : d.config.jwsAlgAllowList.isAllowed alg <;>
      simp [JwsVerifiers.restrictTo, JwsVerifiers.get, h]
  unfold resolvedJwsVerifiers Checks HasVerifier
  rw [hrestrict, get_fallback, get_fallback, get_fallback, get_fallback, hhost]
  cases alg <;> simp [Build.backs, Backends.p256Verifier, Backends.rsaVerifier,
    Backends.ps256Verifier, Backends.ed25519Verifier]

end Deployment

/-! ## Completing the document -/

namespace AuthorizationServerMetadata

variable {m : AuthorizationServerMetadata} {build : Build} {alg : JwsAlg} {x : String}

/-- The three lists, and the list of methods. -/
def assertionAlgs (m : AuthorizationServerMetadata) : List String :=
  m.tokenEndpointAuthSigningAlgValuesSupported.getD []

def requestObjectAlgs (m : AuthorizationServerMetadata) : List String :=
  m.requestObjectSigningAlgValuesSupported.getD []

def dpopAlgs (m : AuthorizationServerMetadata) : List String :=
  m.dpopSigningAlgValuesSupported.getD []

theorem mem_pushNew {values : List String} {value : String} :
    x ∈ pushNew values value ↔ x ∈ values ∨ x = value := by
  unfold pushNew
  split
  · rename_i h
    have hmem : value ∈ values := by simpa using h
    constructor
    · exact Or.inl
    · rintro (h' | rfl)
      · exact h'
      · exact hmem
  · simp

section Parts
variable {name : String}

/-- Each part changes its own members only. -/
theorem markAssertions_frame :
    (m.markAssertions build name).requireSignedRequestObject = m.requireSignedRequestObject ∧
      (m.markAssertions build name).requestObjectAlgs = m.requestObjectAlgs ∧
      (m.markAssertions build name).dpopAlgs = m.dpopAlgs := by
  unfold markAssertions
  split <;> exact ⟨rfl, rfl, rfl⟩

theorem markRequestObjects_frame :
    (m.markRequestObjects build name).requireSignedRequestObject = m.requireSignedRequestObject ∧
      (m.markRequestObjects build name).tokenEndpointAuthMethodsSupported =
        m.tokenEndpointAuthMethodsSupported ∧
      (m.markRequestObjects build name).assertionAlgs = m.assertionAlgs ∧
      (m.markRequestObjects build name).dpopAlgs = m.dpopAlgs := by
  unfold markRequestObjects
  split <;> exact ⟨rfl, rfl, rfl, rfl⟩

theorem markProofs_frame :
    (m.markProofs build name).requireSignedRequestObject = m.requireSignedRequestObject ∧
      (m.markProofs build name).tokenEndpointAuthMethodsSupported =
        m.tokenEndpointAuthMethodsSupported ∧
      (m.markProofs build name).assertionAlgs = m.assertionAlgs ∧
      (m.markProofs build name).requestObjectAlgs = m.requestObjectAlgs := by
  unfold markProofs
  split <;> exact ⟨rfl, rfl, rfl, rfl⟩

end Parts

theorem requireSigned_mark :
    (m.markAlgVerifiable build alg).requireSignedRequestObject = m.requireSignedRequestObject :=
  markProofs_frame.1.trans (markRequestObjects_frame.1.trans markAssertions_frame.1)

theorem mem_methods_mark (h : build.clientAssertion = true) :
    x ∈ (m.markAlgVerifiable build alg).tokenEndpointAuthMethodsSupported ↔
      x ∈ m.tokenEndpointAuthMethodsSupported ∨ x = privateKeyJwt := by
  rw [markAlgVerifiable, markProofs_frame.2.1, markRequestObjects_frame.2.1, ← mem_pushNew,
    markAssertions, if_pos h]

theorem mem_assertionAlgs_mark (h : build.clientAssertion = true) :
    x ∈ (m.markAlgVerifiable build alg).assertionAlgs ↔ x ∈ m.assertionAlgs ∨ x = alg.joseName := by
  rw [markAlgVerifiable, markProofs_frame.2.2.1, markRequestObjects_frame.2.2.1, ← mem_pushNew,
    markAssertions, if_pos h]
  exact Iff.rfl

theorem mem_requestObjectAlgs_mark (h : build.jar = true)
    (hsigned : m.requireSignedRequestObject.isSome = true) :
    x ∈ (m.markAlgVerifiable build alg).requestObjectAlgs ↔
      x ∈ m.requestObjectAlgs ∨ x = alg.joseName := by
  have hsame := (@markAssertions_frame m build alg.joseName).2.1
  have hcond : (build.jar &&
      (m.markAssertions build alg.joseName).requireSignedRequestObject.isSome) = true := by
    rw [markAssertions_frame.1, h, hsigned]
    rfl
  rw [markAlgVerifiable, markProofs_frame.2.2.2, markRequestObjects, if_pos hcond, ← hsame,
    ← mem_pushNew]
  exact Iff.rfl

theorem mem_dpopAlgs_mark (h : build.dpop = true) :
    x ∈ (m.markAlgVerifiable build alg).dpopAlgs ↔ x ∈ m.dpopAlgs ∨ x = alg.joseName := by
  have hsame : ((m.markAssertions build alg.joseName).markRequestObjects build alg.joseName).dpopAlgs =
      m.dpopAlgs := markRequestObjects_frame.2.2.2.trans markAssertions_frame.2.2
  rw [markAlgVerifiable, markProofs, if_pos h, ← hsame, ← mem_pushNew]
  exact Iff.rfl

/-- What a list of the document holds once it is completed for some algorithms, if completing it
for one adds one value. -/
theorem mem_marked {list : AuthorizationServerMetadata → List String} {value : JwsAlg → String}
    {Φ : AuthorizationServerMetadata → Prop}
    (hstep : ∀ m alg, Φ m → (x ∈ list (m.markAlgVerifiable build alg) ↔
      x ∈ list m ∨ x = value alg)) (hkeep : ∀ m alg, Φ m → Φ (m.markAlgVerifiable build alg))
    (algs : List JwsAlg) (hm : Φ m) :
    x ∈ list (algs.foldl (fun m alg => m.markAlgVerifiable build alg) m) ↔
      x ∈ list m ∨ ∃ alg ∈ algs, x = value alg := by
  induction algs generalizing m with
  | nil => simp
  | cons alg algs ih =>
    rw [List.foldl_cons, ih (hkeep m alg hm), hstep m alg hm]
    simp only [List.mem_cons, exists_eq_or_imp, or_assoc]

end AuthorizationServerMetadata

namespace Deployment

open AuthorizationServerMetadata

variable {d : Deployment} {alg : JwsAlg}

/-- The algorithms the document is completed for. -/
theorem exists_resolved {value : JwsAlg → String} {x : String} :
    (∃ alg ∈ JwsAlg.all.filter fun alg => (d.jwsVerifier alg).isSome, x = value alg) ↔
      ∃ alg, d.Checks alg ∧ x = value alg := by
  simp only [List.mem_filter, JwsAlg.mem_all, true_and, jwsVerifier_isSome]

theorem exists_checks_joseName :
    (∃ alg', d.Checks alg' ∧ alg.joseName = alg'.joseName) ↔ d.Checks alg := by
  constructor
  · rintro ⟨alg', hchecks, hname⟩
    rw [JwsAlg.joseName_injective hname]
    exact hchecks
  · exact fun h => ⟨alg, h, rfl⟩

/-- The lists the configuration starts from name nothing that is not checked. -/
theorem checks_of_baseline {names : List String}
    (hnames : ∀ alg : JwsAlg, alg.joseName ∈ names → alg = .es256) (hbuild : d.build.jwtP256 = true)
    (h : alg.joseName ∈ baselineAlgs names d.config.jwsAlgAllowList) : d.Checks alg := by
  obtain ⟨hname, hallowed⟩ := joseName_mem_baselineAlgs.mp h
  have hes256 := hnames alg hname
  subst hes256
  exact ⟨hallowed, .inr hbuild⟩

theorem mem_dpopAlgs (h : d.build.dpop = true) :
    alg.joseName ∈ d.metadata.dpopAlgs ↔ d.Checks alg := by
  rw [metadata, mem_marked (Φ := fun _ => True) (fun _ _ _ => mem_dpopAlgs_mark h)
    (fun _ _ _ => trivial) _ trivial, exists_resolved, exists_checks_joseName, or_iff_right_iff_imp]
  intro hbase
  cases hp256 : d.build.jwtP256 with
  | false => simp [fromConfig, dpopAlgs, hp256] at hbase
  | true =>
    simp only [fromConfig, dpopAlgs, h, hp256, Bool.and_self, if_true, Option.getD_some] at hbase
    refine checks_of_baseline (fun alg => ?_) hp256 hbase
    cases alg <;> decide

theorem mem_assertionAlgs (h : d.build.clientAssertion = true) :
    alg.joseName ∈ d.metadata.assertionAlgs ↔ d.Checks alg := by
  rw [metadata, mem_marked (Φ := fun _ => True) (fun _ _ _ => mem_assertionAlgs_mark h)
    (fun _ _ _ => trivial) _ trivial, exists_resolved, exists_checks_joseName, or_iff_right_iff_imp]
  intro hbase
  cases hp256 : d.build.jwtP256 with
  | false =>
    simp only [fromConfig, assertionAlgs, h, hp256, if_true, Bool.false_eq_true, if_false,
      Option.getD_some] at hbase
    cases alg <;> exact absurd hbase (by decide)
  | true =>
    simp only [fromConfig, assertionAlgs, h, hp256, if_true, Option.getD_some] at hbase
    refine checks_of_baseline (fun alg => ?_) hp256 hbase
    cases alg <;> decide

theorem mem_requestObjectAlgs (h : d.build.jar = true) (hjar : d.config.jar.isSome = true) :
    alg.joseName ∈ d.metadata.requestObjectAlgs ↔ d.Checks alg := by
  obtain ⟨jar, hjar⟩ := Option.isSome_iff_exists.mp hjar
  have hsigned : (fromConfig d.build d.config).requireSignedRequestObject.isSome = true := by
    simp [fromConfig, h, hjar]
  rw [metadata, mem_marked (Φ := fun m => m.requireSignedRequestObject.isSome = true)
    (fun _ _ hm => mem_requestObjectAlgs_mark h hm) (fun _ _ hm => by rw [requireSigned_mark]; exact hm)
    _ hsigned, exists_resolved, exists_checks_joseName, or_iff_right_iff_imp]
  intro hbase
  cases hp256 : d.build.jwtP256 with
  | false => simp [fromConfig, requestObjectAlgs, hp256] at hbase
  | true =>
    simp only [fromConfig, requestObjectAlgs, h, hp256, Bool.and_self, if_true, hjar,
      Option.map_some, Option.getD_some] at hbase
    refine checks_of_baseline (fun alg => ?_) hp256 hbase
    cases alg <;> decide

/-- The configuration alone adds the method in a build with the built-in ES256 backend. -/
theorem privateKeyJwt_mem (h : d.build.clientAssertion = true) :
    privateKeyJwt ∈ d.metadata.tokenEndpointAuthMethodsSupported ↔
      d.build.jwtP256 = true ∨ ∃ alg, d.Checks alg := by
  rw [metadata, mem_marked (Φ := fun _ => True) (fun _ _ _ => mem_methods_mark h)
    (fun _ _ _ => trivial) _ trivial, @exists_resolved d fun _ => privateKeyJwt]
  have hbase : privateKeyJwt ∈ (fromConfig d.build d.config).tokenEndpointAuthMethodsSupported ↔
      d.build.jwtP256 = true := by
    cases hp256 : d.build.jwtP256 <;> cases hmtls : d.build.mtls <;>
      simp [fromConfig, h, hp256, hmtls, privateKeyJwt, clientSecretJwt]
  rw [hbase]
  simp only [and_true]

/-- What is listed for each kind of signed token is what its verification resolves a verifier for,
and the method that needs one is listed if the verification of assertions resolves any. -/
structure Honest (d : Deployment) : Prop where
  dpop : d.build.dpop = true → ∀ alg : JwsAlg,
    alg.joseName ∈ d.metadata.dpopAlgs ↔ (d.resolvedJwsVerifiers.get alg).isSome = true
  assertions : d.build.clientAssertion = true → ∀ alg : JwsAlg,
    alg.joseName ∈ d.metadata.assertionAlgs ↔ (d.jwsVerifier alg).isSome = true
  requestObjects : d.build.jar = true → d.config.jar.isSome = true → ∀ alg : JwsAlg,
    alg.joseName ∈ d.metadata.requestObjectAlgs ↔ (d.jwsVerifier alg).isSome = true
  method : d.build.clientAssertion = true →
    (privateKeyJwt ∈ d.metadata.tokenEndpointAuthMethodsSupported ↔
      ∃ alg, (d.jwsVerifier alg).isSome = true)

end Deployment

/-- The document is honest exactly if a build that takes assertions and has the built-in ES256
backend is left an algorithm by its allow-list. -/
theorem advertised_iff_accepted (d : Deployment) :
    d.Honest ↔ (d.build.clientAssertion = true → d.build.jwtP256 = true → ∃ alg, d.Checks alg) := by
  have hmethod (h : d.build.clientAssertion = true) :
      (privateKeyJwt ∈ d.metadata.tokenEndpointAuthMethodsSupported ↔
        ∃ alg, (d.jwsVerifier alg).isSome = true) ↔
      (d.build.jwtP256 = true → ∃ alg, d.Checks alg) := by
    rw [Deployment.privateKeyJwt_mem h]
    simp only [Deployment.jwsVerifier_isSome]
    exact or_iff_right_iff_imp
  constructor
  · exact fun honest h => (hmethod h).mp (honest.method h)
  · intro h
    refine ⟨fun hdpop alg => ?_, fun hassertion alg => ?_, fun hjar hconfig alg => ?_,
      fun hassertion => (hmethod hassertion).mpr (h hassertion)⟩
    · rw [Deployment.mem_dpopAlgs hdpop, Deployment.resolvedJwsVerifiers_isSome]
    · rw [Deployment.mem_assertionAlgs hassertion, Deployment.jwsVerifier_isSome]
    · rw [Deployment.mem_requestObjectAlgs hjar hconfig, Deployment.jwsVerifier_isSome]

namespace Sample

/-- A build with client assertions and the built-in ES256 backend, and nothing else. -/
def assertionBuild : Build :=
  ⟨false, false, false, true, false, false, false, false, false, true, true, false, false⟩

/-- A server that forbids every algorithm. -/
def forbidding : Deployment where
  build := assertionBuild
  config := { ServerConfig.new "https://as.example" "https://as.example/device" with
    jwsAlgAllowList := .only [] }
  jwsVerifiers := none
  backends := ⟨fun _ _ _ => false, fun _ _ _ => false, fun _ _ _ => false, fun _ _ _ => false⟩

end Sample

/-- A server that accepts no signed assertion at all still asks for them. -/
theorem private_key_jwt_advertised_in_vain :
    privateKeyJwt ∈ Sample.forbidding.metadata.tokenEndpointAuthMethodsSupported ∧
      (∀ alg, Sample.forbidding.jwsVerifier alg = none) ∧ ¬ Sample.forbidding.Honest := by
  have hlisted : privateKeyJwt ∈ Sample.forbidding.metadata.tokenEndpointAuthMethodsSupported := by
    decide
  have hnone : ∀ alg, Sample.forbidding.jwsVerifier alg = none := by
    intro alg
    cases alg <;> rfl
  refine ⟨hlisted, hnone, fun honest => ?_⟩
  obtain ⟨alg, hsome⟩ := (honest.method rfl).mp hlisted
  rw [hnone alg] at hsome
  cases hsome

end OauthAs
