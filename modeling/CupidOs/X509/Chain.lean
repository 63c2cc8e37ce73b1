import Mathlib.Data.List.TakeWhile
import CupidOs.X509.Asn1

/-!
# Certificate chains

`kernel/crypto/x509_chain.c` and the matching functions of `kernel/crypto/x509.c`.
The parser, the hash functions and the signature checks are parameters, so what is
proved here holds whatever they compute.
-/

namespace CupidOs.X509

/-- `X509_SIG_*`. -/
inductive SigAlg
  | none
  | rsaPkcs1Sha256
  | rsaPssSha256
  | ecdsaP256Sha256
  | rsaPkcs1Sha384
  | rsaPkcs1Sha512
  deriving DecidableEq

/-- `x509_pubkey_t` with the part that its type selects. -/
inductive PubKey
  | none
  | rsa (modulus exponent : List UInt8)
  | ecP256 (point : List UInt8)
  deriving DecidableEq

/-- The part of `x509_cert_t` that the chain looks at; spans are the bytes they span. -/
structure Cert where
  tbs : List UInt8
  sig : List UInt8
  issuer : List UInt8
  subject : List UInt8
  notBefore : UInt64
  notAfter : UInt64
  pubkey : PubKey
  sigAlg : SigAlg
  san : List (List UInt8)
  cn : List UInt8
  isCa : Bool
  deriving DecidableEq

/-- The `X509_ERR_*` codes that a chain can fail with. -/
inductive X509Error
  | parse
  | badSig
  | expired
  | notYetValid
  | hostname
  | depth
  | badAlg
  | notCa
  | noTime
  deriving DecidableEq

/-- `X509_CHAIN_MAX_DEPTH`. -/
def chainMaxDepth : Nat := 4

/-- `x509_chain_t`. -/
structure Chain where
  certs : List Cert
  bounded : certs.length ≤ chainMaxDepth

/-- `x509_chain_init`. -/
def x509ChainInit : Chain := ⟨[], Nat.zero_le _⟩

/-- The functions of other modules that a chain is checked with. -/
structure Primitives (Point : Type) where
  sha256 : List UInt8 → Vector UInt8 32
  sha384 : List UInt8 → Vector UInt8 48
  sha512 : List UInt8 → Vector UInt8 64
  rsaPkcs1v15VerifySha256 : (modulus exponent sig : List UInt8) → (hash : Vector UInt8 32) → Bool
  rsaPkcs1v15VerifySha384 : (modulus exponent sig : List UInt8) → (hash : Vector UInt8 48) → Bool
  rsaPkcs1v15VerifySha512 : (modulus exponent sig : List UInt8) → (hash : Vector UInt8 64) → Bool
  rsaPssVerifySha256 : (modulus exponent sig : List UInt8) → (hash : Vector UInt8 32) →
    (saltLen : Nat) → Bool
  p256PubFromUncompressed : List UInt8 → Option Point
  ecdsaP256Verify : (pub : Point) → (hash : Vector UInt8 32) → (r s : List UInt8) → Bool
  x509Parse : List UInt8 → Option Cert

/-- `x509_dn_equal`. -/
def x509DnEqual (a b : List UInt8) : Bool := a == b

/-- `ascii_lower`. -/
def asciiLower (c : UInt8) : UInt8 := if 65 ≤ c ∧ c ≤ 90 then c - 65 + 97 else c

/-- `ascii_ci_eq`. -/
def asciiCiEq (a b : List UInt8) : Bool := a.map asciiLower == b.map asciiLower

/-- `match_dns_name`: `*` is 42 and `.` is 46. -/
def matchDnsName (pat host : List UInt8) : Bool :=
  if pat.take 2 = [42, 46] then
    let label := host.takeWhile (· ≠ 46)
    let rest := host.dropWhile (· ≠ 46)
    if label.length = 0 then false
    else if label.length = host.length then false
    else if rest.length ≠ pat.length - 1 then false
    else asciiCiEq (pat.drop 1) rest
  else
    asciiCiEq pat host

/-- `x509_match_hostname`; the host is what stands before its terminating NUL. -/
def x509MatchHostname (cert : Cert) (host : List UInt8) : Bool :=
  if host = [] then false
  else if 0 < cert.san.length then cert.san.any fun name => matchDnsName name host
  else if 0 < cert.cn.length then matchDnsName cert.cn host
  else false

section Model

variable {Point : Type} (primitives : Primitives Point)

/-- `x509_chain_add`. -/
def x509ChainAdd (chain : Chain) (der : List UInt8) : Except X509Error Chain :=
  if full : chain.certs.length ≥ chainMaxDepth then
    .error .depth
  else
    match primitives.x509Parse der with
    | none => .error .parse
    | some cert => .ok ⟨chain.certs ++ [cert], by
        rw [List.length_append, List.length_singleton]
        omega⟩

/-- One of the RSA branches of `verify_sig`. -/
def verifyRsa (pk : PubKey) (check : (modulus exponent : List UInt8) → Bool) :
    Except X509Error Unit :=
  match pk with
  | .rsa modulus exponent => if check modulus exponent then .ok () else .error .badSig
  | _ => .error .badAlg

/-- `verify_sig`. -/
def verifySig (cert : Cert) (pk : PubKey) : Except X509Error Unit :=
  if cert.sigAlg = .none ∨ pk = .none then
    .ok ()
  else
    match cert.sigAlg with
    | .none => .error .badAlg
    | .rsaPkcs1Sha256 => verifyRsa pk fun modulus exponent =>
      primitives.rsaPkcs1v15VerifySha256 modulus exponent cert.sig (primitives.sha256 cert.tbs)
    | .rsaPkcs1Sha384 => verifyRsa pk fun modulus exponent =>
      primitives.rsaPkcs1v15VerifySha384 modulus exponent cert.sig (primitives.sha384 cert.tbs)
    | .rsaPkcs1Sha512 => verifyRsa pk fun modulus exponent =>
      primitives.rsaPkcs1v15VerifySha512 modulus exponent cert.sig (primitives.sha512 cert.tbs)
    | .rsaPssSha256 => verifyRsa pk fun modulus exponent =>
      primitives.rsaPssVerifySha256 modulus exponent cert.sig (primitives.sha256 cert.tbs) 32
    | .ecdsaP256Sha256 =>
      match pk with
      | .ecP256 point =>
        match primitives.p256PubFromUncompressed point, readEcdsaSig cert.sig with
        | some pub, some (r, s) =>
          if primitives.ecdsaP256Verify pub (primitives.sha256 cert.tbs) r s then .ok ()
          else .error .badSig
        | _, _ => .error .badSig
      | _ => .error .badAlg

/-- `find_root` over the entries of `TLS_CA_BUNDLE`. -/
def findRoot (bundle : List (List UInt8)) (issuer : List UInt8) : Option Cert :=
  (bundle.filterMap primitives.x509Parse).find? fun root => x509DnEqual root.subject issuer

/-- The loop of `x509_chain_verify` over the validity windows. -/
def checkWindows (now : UInt64) : List Cert → Except X509Error Unit
  | [] => .ok ()
  | cert :: certs =>
    if now < cert.notBefore then .error .notYetValid
    else if now > cert.notAfter then .error .expired
    else checkWindows now certs

/-- The loop of `x509_chain_verify` over adjacent certificates. -/
def checkLinks : List Cert → Except X509Error Unit
  | child :: parent :: certs =>
    if ¬parent.isCa then .error .notCa
    else if ¬x509DnEqual child.issuer parent.subject then .error .badSig
    else
      match verifySig primitives child parent.pubkey with
      | .error error => .error error
      | .ok () => checkLinks (parent :: certs)
  | _ => .ok ()

/-- The end of `x509_chain_verify`: the result of the last signature check is discarded. -/
def checkTop (bundle : List (List UInt8)) (top : Cert) : Except X509Error Unit :=
  if 0 < bundle.length then
    match findRoot primitives bundle top.issuer with
    | some root =>
      if root.isCa then
        let _ := verifySig primitives top root.pubkey
        .ok ()
      else
        .ok ()
    | none => .ok ()
  else
    .ok ()

/-- `x509_chain_verify`. -/
def x509ChainVerify (bundle : List (List UInt8)) (chain : Chain) (host : List UInt8)
    (now : UInt64) : Except X509Error Unit :=
  match chain.certs with
  | [] => .error .parse
  | leaf :: certs => do
      if now = 0 then
        throw .noTime
      checkWindows now (leaf :: certs)
      if ¬x509MatchHostname leaf host then
        throw .hostname
      checkLinks primitives (leaf :: certs)
      checkTop primitives bundle ((leaf :: certs).getLast nofun)

end Model

/-! ## Names -/

/-- Name and host are equal up to case, or the name is `*.` and a parent domain, and the host has
one more label in front. -/
def NameMatches (pattern host : List UInt8) : Prop :=
  (pattern.take 2 ≠ [42, 46] ∧ pattern.map asciiLower = host.map asciiLower) ∨
    ∃ suffix label parent, pattern = 42 :: 46 :: suffix ∧ host = label ++ 46 :: parent ∧
      label ≠ [] ∧ 46 ∉ label ∧ suffix.map asciiLower = parent.map asciiLower

lemma takeWhile_label {label : List UInt8} (plain : 46 ∉ label) (parent : List UInt8) :
    (label ++ 46 :: parent).takeWhile (· ≠ 46) = label ∧
      (label ++ 46 :: parent).dropWhile (· ≠ 46) = 46 :: parent := by
  have other : ∀ byte ∈ label, decide (byte ≠ 46) = true := fun byte mem =>
    decide_eq_true fun same => plain (same ▸ mem)
  rw [List.takeWhile_append_of_pos other, List.dropWhile_append_of_pos other]
  simp

lemma split_at_dot {host : List UInt8} (dotted : (host.takeWhile (· ≠ 46)).length ≠ host.length) :
    ∃ label parent, host = label ++ 46 :: parent ∧ 46 ∉ label := by
  apply List.eq_append_cons_of_mem
  by_contra plain
  refine dotted (congrArg List.length (List.takeWhile_eq_self_iff.mpr fun byte mem => ?_))
  exact decide_eq_true fun same => plain (same ▸ mem)

lemma matchDnsName_iff (pattern host : List UInt8) :
    matchDnsName pattern host = true ↔ NameMatches pattern host := by
  rw [matchDnsName, NameMatches]
  by_cases wildcard : pattern.take 2 = [42, 46]
  · rw [if_pos wildcard]
    obtain ⟨suffix, rfl⟩ : ∃ suffix, pattern = 42 :: 46 :: suffix := by
      refine ⟨pattern.drop 2, ?_⟩
      rw [← List.take_append_drop 2 pattern, wildcard]
      simp
    constructor
    · intro matched
      simp only at matched
      split at matched
      · cases matched
      rename_i nonempty
      split at matched
      · cases matched
      rename_i dotted
      obtain ⟨label, parent, rfl, plain⟩ := split_at_dot dotted
      obtain ⟨labelEq, restEq⟩ := takeWhile_label plain parent
      rw [labelEq] at nonempty
      rw [restEq] at matched
      split at matched
      · cases matched
      right
      refine ⟨suffix, label, parent, rfl, rfl, fun empty => nonempty (by rw [empty]; rfl),
        plain, ?_⟩
      simpa [asciiCiEq] using matched
    · rintro (⟨plainPattern, -⟩ | ⟨_, label, parent, same, rfl, nonempty, plain, equal⟩)
      · exact absurd wildcard plainPattern
      · obtain ⟨labelEq, restEq⟩ := takeWhile_label plain parent
        have positive : label.length ≠ 0 := fun empty => nonempty (List.length_eq_zero_iff.mp empty)
        cases same
        have lengths := congrArg List.length equal
        simp only [List.length_map] at lengths
        simp only [labelEq, restEq]
        rw [if_neg positive, if_neg (by simp), if_neg (by simp [lengths])]
        simpa [asciiCiEq] using equal
  · rw [if_neg wildcard]
    constructor
    · intro matched
      exact .inl ⟨wildcard, by simpa [asciiCiEq] using matched⟩
    · rintro (⟨-, equal⟩ | ⟨suffix, label, parent, rfl, -⟩)
      · simpa [asciiCiEq] using equal
      · exact absurd rfl wildcard

/-- One of the alternative names covers the host, or the common name if there is none. -/
def HostMatches (cert : Cert) (host : List UInt8) : Prop :=
  host ≠ [] ∧ ((∃ name ∈ cert.san, NameMatches name host) ∨
      (cert.san = [] ∧ cert.cn ≠ [] ∧ NameMatches cert.cn host))

lemma x509MatchHostname_iff (cert : Cert) (host : List UInt8) :
    x509MatchHostname cert host = true ↔ HostMatches cert host := by
  rw [x509MatchHostname, HostMatches]
  by_cases empty : host = []
  · simp [empty]
  rw [if_neg empty, and_iff_right empty]
  cases san : cert.san with
  | nil =>
    cases cn : cert.cn with
    | nil => simp
    | cons byte cn => simp [matchDnsName_iff]
  | cons name names => simp [matchDnsName_iff]

/-! ## Signatures -/

section

variable {Point : Type} {primitives : Primitives Point}

/-- The signature of a certificate verifies under a key of the kind it is made with. -/
def SignatureVerifies (primitives : Primitives Point) (cert : Cert) (pk : PubKey) : Prop :=
  match cert.sigAlg, pk with
  | .rsaPkcs1Sha256, .rsa modulus exponent =>
    primitives.rsaPkcs1v15VerifySha256 modulus exponent cert.sig (primitives.sha256 cert.tbs)
  | .rsaPkcs1Sha384, .rsa modulus exponent =>
    primitives.rsaPkcs1v15VerifySha384 modulus exponent cert.sig (primitives.sha384 cert.tbs)
  | .rsaPkcs1Sha512, .rsa modulus exponent =>
    primitives.rsaPkcs1v15VerifySha512 modulus exponent cert.sig (primitives.sha512 cert.tbs)
  | .rsaPssSha256, .rsa modulus exponent =>
    primitives.rsaPssVerifySha256 modulus exponent cert.sig (primitives.sha256 cert.tbs) 32
  | .ecdsaP256Sha256, .ecP256 point =>
    ∃ pub r s, primitives.p256PubFromUncompressed point = some pub ∧
      readEcdsaSig cert.sig = some (r, s) ∧
      primitives.ecdsaP256Verify pub (primitives.sha256 cert.tbs) r s
  | _, _ => False

/-- The signature verifies, or, by a documented exception, its algorithm or the key's is not
implemented. -/
def Signed (primitives : Primitives Point) (cert : Cert) (pk : PubKey) : Prop :=
  cert.sigAlg = .none ∨ pk = .none ∨ SignatureVerifies primitives cert pk

lemma verifyRsa_ok_iff {check : (modulus exponent : List UInt8) → Bool}
    {modulus exponent : List UInt8} :
    verifyRsa (.rsa modulus exponent) check = .ok () ↔ check modulus exponent = true := by
  rw [verifyRsa]
  split <;> simp_all

lemma verifySig_ok_iff (cert : Cert) (pk : PubKey) :
    verifySig primitives cert pk = .ok () ↔ Signed primitives cert pk := by
  unfold verifySig Signed SignatureVerifies
  cases pk with
  | none => simp
  | rsa modulus exponent =>
    cases alg : cert.sigAlg with
    | none | ecdsaP256Sha256 => simp
    | rsaPkcs1Sha256 | rsaPkcs1Sha384 | rsaPkcs1Sha512 | rsaPssSha256 => simp [verifyRsa_ok_iff]
  | ecP256 point =>
    cases alg : cert.sigAlg with
    | none => simp
    | rsaPkcs1Sha256 | rsaPkcs1Sha384 | rsaPkcs1Sha512 | rsaPssSha256 => simp [verifyRsa]
    | ecdsaP256Sha256 =>
      cases pubEq : primitives.p256PubFromUncompressed point with
      | none => simp [pubEq]
      | some pub =>
        generalize readEcdsaSig cert.sig = parts
        cases parts with
        | none => simp [pubEq]
        | some parts =>
          obtain ⟨r, s⟩ := parts
          simp [pubEq]

end

/-! ## Trust -/

section

variable {Point : Type} {primitives : Primitives Point}

/-- What `x509_chain_verify` checks of a chain whose leaf comes first. -/
structure Checked (primitives : Primitives Point) (certs : List Cert) (host : List UInt8)
    (now : UInt64) : Prop where
  windows : ∀ cert ∈ certs, cert.notBefore ≤ now ∧ now ≤ cert.notAfter
  leaf : ∃ leaf ∈ certs.head?, HostMatches leaf host
  links : ∀ index child parent, certs[index]? = some child → certs[index + 1]? = some parent →
    parent.isCa = true ∧ child.issuer = parent.subject ∧ Signed primitives child parent.pubkey

/-- The last certificate is signed by each bundled root that it names as its issuer. -/
def TopSigned (primitives : Primitives Point) (bundle : List (List UInt8)) (certs : List Cert) :
    Prop :=
  ∀ top ∈ certs.getLast?, ∀ der ∈ bundle, ∀ root, primitives.x509Parse der = some root →
    root.isCa = true → root.subject = top.issuer → Signed primitives top root.pubkey

lemma checkWindows_ok_iff (now : UInt64) (certs : List Cert) :
    checkWindows now certs = .ok () ↔ ∀ cert ∈ certs, cert.notBefore ≤ now ∧ now ≤ cert.notAfter := by
  induction certs with
  | nil => simp [checkWindows]
  | cons cert certs ih =>
    rw [checkWindows, List.forall_mem_cons, ← ih]
    by_cases early : now < cert.notBefore
    · simp [early]
    by_cases late : cert.notAfter < now
    · simp [early, late]
    · simp [early, late, UInt64.not_lt.mp early, UInt64.not_lt.mp late]

lemma checkLinks_ok_iff (certs : List Cert) : checkLinks primitives certs = .ok () ↔
      ∀ index child parent, certs[index]? = some child → certs[index + 1]? = some parent →
        parent.isCa = true ∧ child.issuer = parent.subject ∧
          Signed primitives child parent.pubkey := by
  induction certs with
  | nil => simp [checkLinks]
  | cons child certs ih =>
    cases certs with
    | nil => simp [checkLinks]
    | cons parent certs =>
      have step : checkLinks primitives (child :: parent :: certs) = .ok () ↔
          (parent.isCa = true ∧ child.issuer = parent.subject ∧
            Signed primitives child parent.pubkey) ∧
            checkLinks primitives (parent :: certs) = .ok () := by
        rw [checkLinks, ← verifySig_ok_iff]
        by_cases ca : parent.isCa = true
        · by_cases named : child.issuer = parent.subject
          · cases verifySig primitives child parent.pubkey <;> simp [ca, named, x509DnEqual]
          · simp [ca, named, x509DnEqual]
        · simp [ca]
      rw [step, ih]
      constructor
      · rintro ⟨first, others⟩ index next issuer childAt parentAt
        cases index with
        | zero =>
          cases childAt
          cases parentAt
          exact first
        | succ index => exact others index next issuer childAt parentAt
      · intro links
        exact ⟨links 0 child parent rfl rfl, fun index => links (index + 1)⟩

lemma checkTop_ok (bundle : List (List UInt8)) (top : Cert) :
    checkTop primitives bundle top = .ok () := by
  rw [checkTop]
  split
  · split
    · split <;> rfl
    · rfl
  · rfl

/-- `x509_chain_verify` accepts exactly what passes its checks, whatever the bundle. -/
theorem x509ChainVerify_ok_iff (bundle : List (List UInt8)) (chain : Chain) (host : List UInt8)
    (now : UInt64) :
    x509ChainVerify primitives bundle chain host now = .ok () ↔
      now ≠ 0 ∧ Checked primitives chain.certs host now := by
  rw [x509ChainVerify]
  generalize chain.certs = certs
  cases certs with
  | nil =>
    apply iff_of_false nofun
    rintro ⟨-, checked⟩
    obtain ⟨leaf, mem, -⟩ := checked.leaf
    cases mem
  | cons leaf certs =>
    have parts : Checked primitives (leaf :: certs) host now ↔
        checkWindows now (leaf :: certs) = .ok () ∧ x509MatchHostname leaf host = true ∧
          checkLinks primitives (leaf :: certs) = .ok () := by
      rw [checkWindows_ok_iff, x509MatchHostname_iff, checkLinks_ok_iff]
      constructor
      · rintro ⟨windows, ⟨first, mem, matched⟩, links⟩
        cases mem
        exact ⟨windows, matched, links⟩
      · rintro ⟨windows, matched, links⟩
        exact ⟨windows, ⟨leaf, rfl, matched⟩, links⟩
    rw [parts]
    by_cases unset : now = 0
    · simp only [unset, if_true, ne_eq, not_true, false_and, iff_false]
      nofun
    simp only [unset, if_false, ne_eq, not_false_iff, true_and]
    cases checkWindows now (leaf :: certs) with
    | error error => exact iff_of_false nofun (fun both => nomatch both.1)
    | ok _ =>
      cases x509MatchHostname leaf host with
      | false => exact iff_of_false nofun (fun both => nomatch both.2.1)
      | true =>
        cases checkLinks primitives (leaf :: certs) with
        | error error => exact iff_of_false nofun (fun both => nomatch both.2.2)
        | ok _ => exact iff_of_true (checkTop_ok bundle _) ⟨rfl, rfl, rfl⟩

/-- A chain that a host may be trusted by. -/
structure Trusted (primitives : Primitives Point) (bundle : List (List UInt8))
    (certs : List Cert) (host : List UInt8) (now : UInt64) : Prop where
  checked : Checked primitives certs host now
  top : TopSigned primitives bundle certs

/-- For every chain, host and clock that is set, acceptance implies trust exactly if the
last certificate of a chain that passes the other checks is signed by the bundled
roots it names: nothing in `x509_chain_verify` makes it so. -/
theorem accepted_trusted_iff (primitives : Primitives Point) (bundle : List (List UInt8))
    (chain : Chain) (host : List UInt8) {now : UInt64} (clock : now ≠ 0) :
    (x509ChainVerify primitives bundle chain host now = .ok () →
        Trusted primitives bundle chain.certs host now) ↔
      (Checked primitives chain.certs host now → TopSigned primitives bundle chain.certs) := by
  rw [x509ChainVerify_ok_iff, and_iff_right clock]
  exact ⟨fun trusted checked => (trusted checked).top,
    fun signed checked => ⟨checked, signed checked⟩⟩

end

/-- A bundled root. -/
def exampleRoot : Cert where
  tbs := []
  sig := []
  issuer := [7]
  subject := [7]
  notBefore := 0
  notAfter := 100
  pubkey := .rsa [3] [5]
  sigAlg := .rsaPkcs1Sha256
  san := []
  cn := []
  isCa := true

/-- A certificate that names the bundled root as its issuer, for the host `a`. -/
def exampleLeaf : Cert :=
  { exampleRoot with subject := [8], san := [[97]], isCa := false }

/-- Every RSA signature has the given validity, and only the root parses. -/
def examplePrimitives (valid : Bool) : Primitives Unit where
  sha256 _ := Vector.replicate 32 0
  sha384 _ := Vector.replicate 48 0
  sha512 _ := Vector.replicate 64 0
  rsaPkcs1v15VerifySha256 _ _ _ _ := valid
  rsaPkcs1v15VerifySha384 _ _ _ _ := valid
  rsaPkcs1v15VerifySha512 _ _ _ _ := valid
  rsaPssVerifySha256 _ _ _ _ _ := valid
  p256PubFromUncompressed _ := none
  ecdsaP256Verify _ _ _ _ := false
  x509Parse der := if der = [1] then some exampleRoot else none

/-- The chain that consists of `exampleLeaf`. -/
def exampleChain : Chain := ⟨[exampleLeaf], by decide⟩

theorem signed_chain_trusted :
    x509ChainVerify (examplePrimitives true) [[1]] exampleChain [97] 50 = .ok () ∧
      Trusted (examplePrimitives true) [[1]] exampleChain.certs [97] 50 := by
  have accepted : x509ChainVerify (examplePrimitives true) [[1]] exampleChain [97] 50 = .ok () := by
    decide
  refine ⟨accepted, (accepted_trusted_iff _ _ _ _ (by decide)).mpr (fun _ => ?_) accepted⟩
  intro top mem der inBundle root parsed _ _
  cases mem
  rw [List.mem_singleton.mp inBundle] at parsed
  cases parsed
  exact .inr (.inr rfl)

/-- A chain is accepted although the bundled root that it names did not sign it. -/
theorem unsigned_chain_accepted :
    x509ChainVerify (examplePrimitives false) [[1]] exampleChain [97] 50 = .ok () ∧
      ¬Trusted (examplePrimitives false) [[1]] exampleChain.certs [97] 50 := by
  refine ⟨by decide, fun trusted => ?_⟩
  have signed := trusted.top exampleLeaf rfl [1] (by decide) exampleRoot rfl rfl rfl
  rcases signed with unimplemented | unimplemented | verified
  · cases unimplemented
  · cases unimplemented
  · cases verified

end CupidOs.X509
