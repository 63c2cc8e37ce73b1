import CupidOs.X509.Certificate

/-!
# What an accepted certificate is

The parser fetches bytes only inside the input and ends on every input. What it accepts is
described over the encodings in the input: the stored spans lie in it, the signed part is the
first value of the certificate with its header, and a critical extension is one that the parser
knows. The version is one of the three that exist unless the field holds 255.
-/

namespace CupidOs.X509.Spans

open Der List Option Transition

variable {der : List UInt8}

/-! ## Loops -/

variable {c left spki alg : Cursor} {tag : UInt8} {body : Span} {rest oid : List UInt8}
  {state : Extensions}

lemma asn1Remaining_le (inside : c.Inside der) : asn1Remaining c ≤ der.length := by
  have fits := inside.fits
  unfold asn1Remaining
  omega

/-- A loop over the values at a cursor keeps what each value keeps, and reads them all. -/
theorem ensures_whileRemaining {σ : Type} {step : σ → Except Stop σ} (cursor : σ → Cursor)
    (invariant : σ → Prop) (inside : ∀ state, invariant state → (cursor state).Inside der)
    (keeps : ∀ state, invariant state → 0 < asn1Remaining (cursor state) →
      Safely (step state) fun later =>
        invariant later ∧ asn1Remaining (cursor later) < asn1Remaining (cursor state))
    {state : σ} (holds : invariant state) :
    Safely (whileRemaining der cursor step state) fun final =>
      invariant final ∧ (cursor final).window der = [] := by
  have bound := asn1Remaining_le (inside state holds)
  refine (ensures_repeatWhile (fun state => asn1Remaining (cursor state)) ?_ holds
    (by omega)).mono ?_
  · intro state kept more
    exact keeps state kept (of_decide_eq_true more)
  · rintro final ⟨kept, done⟩
    refine ⟨kept, ?_⟩
    have none := of_decide_eq_false done
    rw [← length_eq_zero_iff, (inside final kept).length_window]
    unfold asn1Remaining at none
    omega

lemma ensures_skipRest (inside : c.Inside der) :
    Safely (skipRest der c) fun _ => True := by
  refine (ensures_whileRemaining id (Cursor.Inside der) (fun _ inside => inside) ?_
    inside).bind fun _ _ => trivial
  intro c inside _
  apply (ensures_asn1SkipAny inside).mono
  rintro left ⟨tag, body, reads⟩
  exact ⟨reads.leftInside, reads.progress⟩

/-- A chain of comparisons finds the identifier, or it is none of those compared. -/
theorem ensures_matchOid {α : Type} {oid : Span} (inside : oid.Inside der)
    (table : List (List UInt8 × α)) (other : α) :
    Safely (matchOid der oid table other) fun result =>
      (oid.bytes der, result) ∈ table ∨
        (result = other ∧ ∀ entry ∈ table, oid.bytes der ≠ entry.1) := by
  induction table with
  | nil => exact .inr ⟨rfl, nofun⟩
  | cons entry table ih =>
    obtain ⟨want, found⟩ := entry
    apply (ensures_asn1OidEquals inside want).bind
    intro same sameIff
    split
    · rename_i equal
      rw [sameIff.mp equal]
      exact .inl mem_cons_self
    rename_i different
    apply ih.mono
    rintro result (mem | ⟨none, absent⟩)
    · exact .inl (mem_cons_of_mem _ mem)
    · refine .inr ⟨none, ?_⟩
      intro entry mem
      rcases mem_cons.mp mem with rfl | mem
      · exact mt sameIff.mpr different
      · exact absent entry mem

/-! ## Algorithms and keys -/

lemma Reads.begins_window (reads : Reads der c tag body left) :
    Begins (c.window der) tag (body.bytes der) (left.window der) := by
  refine ⟨reads.encoded, ?_⟩
  have small := reads.small
  rw [reads.bodyInside.length_bytes]
  calc body.len ≤ 0xFFFFFF := small
    _ < 256 ^ 126 := by decide

lemma ensures_parseAlg (inside : c.Inside der) :
    Safely (parseAlg der c) fun parsed =>
      ∃ body, Reads der c asn1TagSequence body parsed.2 := by
  apply (ensures_asn1Open inside asn1TagSequence).bind
  rintro ⟨alg, left⟩ ⟨body, rfl, reads⟩
  apply (ensures_asn1ReadTlv reads.bodyInside.asn1Init asn1TagOid).bind
  rintro ⟨oid, alg⟩ oidReads
  refine (ensures_matchOid oidReads.bodyInside _ _).bind fun sigAlg _ => ?_
  exact (ensures_skipRest oidReads.leftInside).bind fun _ _ => ⟨body, reads⟩

/-- The spans of a key that are stored. -/
def PubKeySpans.spans (key : PubKeySpans) : List Span :=
  (key.rsa.map fun rsa => [rsa.1, rsa.2]).getD [] ++ key.ec.toList

lemma ensures_parseRsaKey (spkiInside : spki.Inside der) (algInside : alg.Inside der) :
    Safely (parseRsaKey der spki alg) fun key =>
      ∀ span ∈ key.spans, span.Inside der := by
  refine (ensures_skipRest algInside).bind fun _ _ => ?_
  apply (ensures_asn1ReadBitString spkiInside).bind
  rintro ⟨bit, left⟩ ⟨bitInside, -⟩
  apply (ensures_asn1Open bitInside.asn1Init asn1TagSequence).bind
  rintro ⟨rsa, left⟩ ⟨body, rfl, reads⟩
  apply (ensures_asn1ReadUint reads.bodyInside.asn1Init).bind
  rintro ⟨modulus, rsa⟩ modulusReads
  obtain ⟨modulusBody, modulusBodyReads, -⟩ := modulusReads.body
  apply (ensures_asn1ReadUint modulusBodyReads.leftInside).bind
  rintro ⟨exponent, rsa⟩ exponentReads
  intro span mem
  simp only [PubKeySpans.spans, map_some, getD_some, toList_none,
    append_nil, mem_cons, not_mem_nil, or_false] at mem
  rcases mem with rfl | rfl
  · exact modulusReads.inside
  · exact exponentReads.inside

lemma ensures_parseEcKey (spkiInside : spki.Inside der) (algInside : alg.Inside der) :
    Safely (parseEcKey der spki alg) fun key =>
      ∀ span ∈ key.spans, span.Inside der := by
  apply (ensures_asn1ReadTlv algInside asn1TagOid).bind
  rintro ⟨curveOid, alg⟩ curveReads
  refine (ensures_skipRest curveReads.leftInside).bind fun _ _ => ?_
  apply (ensures_asn1ReadBitString spkiInside).bind
  rintro ⟨bit, left⟩ ⟨bitInside, -⟩
  refine (ensures_asn1OidEquals curveReads.bodyInside oidPrime256v1).bind fun same _ => ?_
  have stored : ∀ type, ∀ span ∈ PubKeySpans.spans ⟨type, none, some bit⟩, span.Inside der := by
    intro type span mem
    simp only [PubKeySpans.spans, map_none, getD_none, nil_append,
      toList_some, mem_singleton] at mem
    rw [mem]
    exact bitInside
  have fits : bit.start + bit.len ≤ der.length := bitInside
  split
  · refine ensures_require_bind rfl fun length => ?_
    refine (ensures_byteAt (by omega : bit.start < der.length)).bind fun _ _ => ?_
    exact ensures_require_bind rfl fun _ => stored .ecP256
  · exact stored .none

lemma ensures_parseOtherKey (spkiInside : spki.Inside der) (algInside : alg.Inside der) :
    Safely (parseOtherKey der spki alg) fun key =>
      ∀ span ∈ key.spans, span.Inside der := by
  refine (ensures_skipRest algInside).bind fun _ _ => ?_
  exact (ensures_asn1ReadBitString spkiInside).bind fun _ _ => nofun

lemma ensures_parseSpki (inside : c.Inside der) :
    Safely (parseSpki der c) fun parsed =>
      (∀ span ∈ parsed.1.spans, span.Inside der) ∧
        ∃ body, Reads der c asn1TagSequence body parsed.2 := by
  apply (ensures_asn1Open inside asn1TagSequence).bind
  rintro ⟨spki, left⟩ ⟨body, rfl, reads⟩
  apply (ensures_asn1Open reads.bodyInside.asn1Init asn1TagSequence).bind
  rintro ⟨alg, spki⟩ ⟨algBody, rfl, algReads⟩
  apply (ensures_asn1ReadTlv algReads.bodyInside.asn1Init asn1TagOid).bind
  rintro ⟨oid, alg⟩ oidReads
  apply (ensures_matchOid oidReads.bodyInside _ _).bind
  intro parse which
  have parsed : Safely (parse spki alg) fun key =>
      ∀ span ∈ key.spans, span.Inside der := by
    rcases which with mem | ⟨rfl, -⟩
    · simp only [mem_cons, Prod.mk.injEq, not_mem_nil, or_false] at mem
      rcases mem with ⟨-, rfl⟩ | ⟨-, rfl⟩
      · exact ensures_parseRsaKey algReads.leftInside oidReads.leftInside
      · exact ensures_parseEcKey algReads.leftInside oidReads.leftInside
    · exact ensures_parseOtherKey algReads.leftInside oidReads.leftInside
  exact parsed.bind fun key stored => ⟨stored, body, reads⟩

/-! ## Names -/

lemma ensures_attempt {α : Type} {reader : Except Stop α} {post : α → Prop}
    (ensures : Safely reader post) :
    Safely (attempt reader) fun result =>
      ∀ value, result = some value → post value := by
  cases reader with
  | error stop =>
    have rejected : stop = .rejected := ensures
    rw [rejected]
    exact nofun
  | ok value =>
    rintro _ ⟨⟩
    exact ensures

/-- What a scan keeps: its cursor and the name that it found lie in the input. -/
structure Scan.Sound (der : List UInt8) (scan : Scan) : Prop where
  cursor : scan.cursor.Inside der
  cn : ∀ span, scan.cn = some span → span.Inside der

/-- A scan that failed has no rounds left. -/
def Scan.rounds (scan : Scan) : Nat := if scan.failed then 0 else asn1Remaining scan.cursor + 1

variable {scan : Scan}

lemma ensures_scanLoop {step : Scan → Except Stop Scan}
    (keeps : ∀ scan, scan.Sound der → scan.failed = false →
      Safely (step scan) fun later => later.Sound der ∧ later.rounds < scan.rounds)
    (sound : scan.Sound der) : Safely (scanLoop der step scan) (Scan.Sound der) := by
  have bound := asn1Remaining_le sound.cursor
  have enough : scan.rounds < der.length + 2 := by
    unfold Scan.rounds
    split <;> omega
  refine (ensures_repeatWhile Scan.rounds ?_ sound enough).mono fun _ final => final.1
  intro scan sound more
  exact keeps scan sound (by simpa using (Bool.and_eq_true_iff.mp more).1)

lemma Scan.Sound.fail (sound : scan.Sound der) (going : scan.failed = false) :
    Scan.Sound der { scan with failed := true } ∧
      Scan.rounds { scan with failed := true } < scan.rounds := by
  refine ⟨⟨sound.cursor, sound.cn⟩, ?_⟩
  simp [Scan.rounds, going]

lemma ensures_readAttribute {cn : Option Span} {rdn : Cursor} (inside : rdn.Inside der)
    (cnInside : ∀ span, cn = some span → span.Inside der) :
    Safely (readAttribute der cn rdn) fun read =>
      (∀ span, read.1 = some span → span.Inside der) ∧
        ∃ body, Reads der rdn asn1TagSequence body read.2 := by
  apply (ensures_asn1Open inside asn1TagSequence).bind
  rintro ⟨atv, rdn⟩ ⟨body, rfl, reads⟩
  apply (ensures_asn1ReadTlv reads.bodyInside.asn1Init asn1TagOid).bind
  rintro ⟨oid, atv⟩ oidReads
  apply (ensures_asn1ReadAny oidReads.leftInside).bind
  rintro ⟨⟨tag, value⟩, atv⟩ valueReads
  refine (ensures_asn1OidEquals oidReads.bodyInside oidAtCn).bind fun same _ => ?_
  split
  · split
    · refine ⟨?_, body, reads⟩
      rintro span ⟨⟩
      exact valueReads.bodyInside
    · exact ⟨cnInside, body, reads⟩
  · exact ⟨cnInside, body, reads⟩

lemma ensures_scanAttribute (sound : scan.Sound der) (going : scan.failed = false) :
    Safely (scanAttribute der scan) fun later =>
      later.Sound der ∧ later.rounds < scan.rounds := by
  apply (ensures_attempt (ensures_readAttribute sound.cursor sound.cn)).bind
  intro result read
  cases result with
  | none => exact sound.fail going
  | some value =>
    obtain ⟨cn, rdn⟩ := value
    obtain ⟨cnInside, body, reads⟩ := read _ rfl
    refine ⟨⟨reads.leftInside, cnInside⟩, ?_⟩
    have progress : asn1Remaining rdn < asn1Remaining scan.cursor := reads.progress
    simp only [Scan.rounds, going, Bool.false_eq_true, if_false]
    omega

lemma ensures_scanRdn (sound : scan.Sound der) (going : scan.failed = false) :
    Safely (scanRdn der scan) fun later =>
      later.Sound der ∧ later.rounds < scan.rounds := by
  apply (ensures_attempt (ensures_asn1Open sound.cursor asn1TagSet)).bind
  intro result opened
  cases result with
  | none => exact sound.fail going
  | some value =>
    obtain ⟨rdn, name⟩ := value
    obtain ⟨body, rdnEq, reads⟩ := opened _ rfl
    simp only at rdnEq
    subst rdnEq
    have start : Scan.Sound der ⟨scan.cn, asn1Init body, false⟩ :=
      ⟨reads.bodyInside.asn1Init, sound.cn⟩
    refine (ensures_scanLoop (fun _ => ensures_scanAttribute) start).bind ?_
    intro inner innerSound
    refine ⟨⟨reads.leftInside, innerSound.cn⟩, ?_⟩
    have progress : asn1Remaining name < asn1Remaining scan.cursor := reads.progress
    simp only [Scan.rounds, going, Bool.false_eq_true, if_false]
    split <;> omega

lemma ensures_scanDnForCn {dn : Span} (inside : dn.Inside der) :
    Safely (scanDnForCn der dn) fun cn =>
      ∀ span, cn = some span → span.Inside der := by
  have start : Scan.Sound der ⟨none, asn1Init dn, false⟩ := ⟨inside.asn1Init, nofun⟩
  exact (ensures_scanLoop (fun _ => ensures_scanRdn) start).bind fun scan sound => sound.cn

/-! ## Extensions -/

/-- The identifiers of the extensions that the parser knows. -/
def Recognised (oid : List UInt8) : Prop :=
  oid = oidCeSan ∨ oid = oidCeBc ∨ oid ∈ oidsUnenforced

/-- The body of an extension says that it is critical. -/
def CriticalOid (ext oid : List UInt8) : Prop :=
  ∃ left flag after, Begins ext asn1TagOid oid left ∧ Begins left asn1TagBoolean [flag] after ∧
    flag ≠ 0

/-- A critical extension is in a list of extensions. -/
def ListsCritical (exts oid : List UInt8) : Prop :=
  ∃ items ext, Tlvs exts items ∧ (asn1TagSequence, ext) ∈ items ∧ CriticalOid ext oid

/-- A critical extension is in the extension field of a certificate body. -/
def HasCritical (tbs oid : List UInt8) : Prop :=
  ∃ items field exts after, Tlvs tbs items ∧ (asn1TagCtx3, field) ∈ items ∧
    Begins field asn1TagSequence exts after ∧ ListsCritical exts oid

lemma ListsCritical.of_begins {bytes ext : List UInt8} (lists : ListsCritical bytes oid)
    (begins : Begins bytes asn1TagSequence ext rest) :
    CriticalOid ext oid ∨ ListsCritical rest oid := by
  obtain ⟨items, found, tlvs, mem, critical⟩ := lists
  rcases tlvs.mem_of_begins begins mem with same | ⟨later, tail, mem⟩
  · rw [(Prod.mk.inj same).2] at critical
    exact .inl critical
  · exact .inr ⟨later, found, tail, mem, critical⟩

lemma HasCritical.of_begins {bytes body : List UInt8} (has : HasCritical bytes oid)
    (begins : Begins bytes tag body rest) :
    (tag = asn1TagCtx3 ∧ ∃ exts after, Begins body asn1TagSequence exts after ∧
      ListsCritical exts oid) ∨ HasCritical rest oid := by
  obtain ⟨items, field, exts, after, tlvs, mem, opened, lists⟩ := has
  rcases tlvs.mem_of_begins begins mem with same | ⟨later, tail, mem⟩
  · obtain ⟨tagEq, fieldEq⟩ := Prod.mk.inj same
    rw [fieldEq] at opened
    exact .inl ⟨tagEq.symm, exts, after, opened, lists⟩
  · exact .inr ⟨later, field, exts, after, tail, mem, opened, lists⟩

lemma not_listsCritical_nil (oid : List UInt8) : ¬ ListsCritical [] oid := by
  rintro ⟨items, ext, tlvs, mem, -⟩
  exact tlvs.not_mem_of_nil mem

lemma not_hasCritical_nil (oid : List UInt8) : ¬ HasCritical [] oid := by
  rintro ⟨items, field, exts, after, tlvs, mem, -⟩
  exact tlvs.not_mem_of_nil mem

lemma ensures_asn1PeekTag (inside : c.Inside der) :
    Safely (asn1PeekTag der c) fun tag => tag = (c.window der).head? := by
  unfold asn1PeekTag
  split
  · rename_i done
    have empty : (c.window der).length = 0 := by
      rw [inside.length_window]
      omega
    rw [length_eq_zero_iff.mp empty]
    rfl
  · rename_i more
    obtain ⟨byte, fetched, window⟩ := exists_byteAt (by omega : c.p < c.stop) inside.fits
    have windowEq : c.window der = byte :: Cursor.window der ⟨c.p + 1, c.stop⟩ := window
    rw [fetched, windowEq]
    rfl

lemma head?_of_begins {bytes body : List UInt8} (begins : Begins bytes tag body rest) :
    bytes.head? = some tag := by
  rw [begins.encoded]
  rfl

lemma ensures_readBoolean (inside : c.Inside der) :
    Safely (readBoolean der c) fun read =>
      ∃ body byte, Reads der c asn1TagBoolean body read.2 ∧ body.bytes der = [byte] ∧
        (read.1 = false → byte = 0) := by
  apply (ensures_asn1ReadTlv inside asn1TagBoolean).bind
  rintro ⟨body, left⟩ reads
  have fits : body.start + body.len ≤ der.length := reads.bodyInside
  refine ensures_require_bind rfl fun length => ?_
  apply (ensures_byteAt (by omega : body.start < der.length)).bind
  intro byte byteEq
  exact ⟨body, byte, reads, bytes_of_len_eq_one length byteEq, by simp⟩

/-- What the loops over extensions and names keep. -/
structure Extensions.Sound (der : List UInt8) (state : Extensions) : Prop where
  cursor : state.cursor.Inside der
  san : ∀ span ∈ state.san, span.Inside der

lemma ensures_readGeneralName (sound : state.Sound der) :
    Safely (readGeneralName der state) fun later =>
      later.Sound der ∧ asn1Remaining later.cursor < asn1Remaining state.cursor := by
  apply (ensures_asn1ReadAny sound.cursor).bind
  rintro ⟨⟨tag, name⟩, left⟩ reads
  dsimp only
  split
  · refine ⟨⟨reads.leftInside, ?_⟩, reads.progress⟩
    intro span mem
    rcases mem_append.mp mem with mem | mem
    · exact sound.san span mem
    · rw [mem_singleton.mp mem]
      exact reads.bodyInside
  · exact ⟨⟨reads.leftInside, sound.san⟩, reads.progress⟩

/-- What a branch of `parse_extensions` does to the state. -/
def KeepsExtensions (der : List UInt8) (parse : Span → Extensions → Except Stop Extensions) :
    Prop :=
  ∀ value state, value.Inside der → Extensions.Sound der state →
    Safely (parse value state) fun later =>
      later.cursor = state.cursor ∧ ∀ span ∈ later.san, span.Inside der

lemma keepsExtensions_parseSan : KeepsExtensions der (parseSan der) := by
  intro value state inside sound
  apply (ensures_asn1Open inside.asn1Init asn1TagSequence).bind
  rintro ⟨san, left⟩ ⟨body, rfl, reads⟩
  have start : Extensions.Sound der { state with cursor := asn1Init body } :=
    ⟨reads.bodyInside.asn1Init, sound.san⟩
  refine (ensures_whileRemaining Extensions.cursor (Extensions.Sound der)
    (fun _ => Extensions.Sound.cursor) ?_ start).bind ?_
  · exact fun _ kept _ => ensures_readGeneralName kept
  · rintro final ⟨kept, -⟩
    exact ⟨rfl, kept.san⟩

lemma keepsExtensions_parseBasicConstraints : KeepsExtensions der (parseBasicConstraints der) := by
  intro value state inside sound
  apply (ensures_asn1Open inside.asn1Init asn1TagSequence).bind
  rintro ⟨bc, left⟩ ⟨body, rfl, reads⟩
  have bcInside := reads.bodyInside.asn1Init
  refine (ensures_asn1PeekTag bcInside).bind fun tag _ => ?_
  split
  · exact (ensures_readBoolean bcInside).bind fun _ _ => ⟨rfl, sound.san⟩
  · exact ⟨rfl, sound.san⟩

lemma keepsExtensions_parseUnenforced : KeepsExtensions der parseUnenforced :=
  fun _ _ _ sound => ⟨rfl, sound.san⟩

/-- The flag that is read tells whether the extension is critical. -/
theorem ensures_readCritical {ext : List UInt8} (inside : c.Inside der)
    (begins : Begins ext asn1TagOid oid (c.window der)) :
    Safely (readCritical der c) fun read =>
      read.2.Inside der ∧ (read.1 = false → ∀ other, ¬ CriticalOid ext other) := by
  apply (ensures_asn1PeekTag inside).bind
  intro tag tagEq
  split
  · apply (ensures_readBoolean inside).mono
    rintro ⟨critical, left⟩ ⟨body, byte, reads, bodyEq, clear⟩
    refine ⟨reads.leftInside, ?_⟩
    rintro notSet other ⟨rest, flag, after, first, second, set⟩
    obtain ⟨-, -, rfl⟩ := begins.unique first
    obtain ⟨-, bodies, -⟩ := reads.begins_window.unique second
    rw [bodyEq] at bodies
    rw [← singleton_inj.mp bodies] at set
    exact set (clear notSet)
  · rename_i absent
    refine ⟨inside, ?_⟩
    rintro - other ⟨rest, flag, after, first, second, set⟩
    obtain ⟨-, -, rfl⟩ := begins.unique first
    exact absent (tagEq.trans (head?_of_begins second))

/-- The branches of `parse_extensions`, each with the identifier that leads to it. -/
theorem keepsExtensions_of_mem {parse : Span → Extensions → Except Stop Extensions}
    (mem : (oid, some parse) ∈
      ((oidCeSan, some (parseSan der)) :: (oidCeBc, some (parseBasicConstraints der)) ::
        oidsUnenforced.map fun oid => (oid, some parseUnenforced))) :
    Recognised oid ∧ KeepsExtensions der parse := by
  rcases mem_cons.mp mem with same | mem
  · obtain ⟨rfl, ⟨⟩⟩ := Prod.mk.inj same
    exact ⟨.inl rfl, keepsExtensions_parseSan⟩
  rcases mem_cons.mp mem with same | mem
  · obtain ⟨rfl, ⟨⟩⟩ := Prod.mk.inj same
    exact ⟨.inr (.inl rfl), keepsExtensions_parseBasicConstraints⟩
  obtain ⟨unenforced, listed, same⟩ := mem_map.mp mem
  obtain ⟨rfl, ⟨⟩⟩ := Prod.mk.inj same
  exact ⟨.inr (.inr listed), keepsExtensions_parseUnenforced⟩

lemma ensures_parseExtension (sound : state.Sound der) :
    Safely (parseExtension der state) fun later =>
      later.Sound der ∧ ∃ ext, Reads der state.cursor asn1TagSequence ext later.cursor ∧
        ∀ oid, CriticalOid (ext.bytes der) oid → Recognised oid := by
  apply (ensures_asn1Open sound.cursor asn1TagSequence).bind
  rintro ⟨ext, exts⟩ ⟨body, rfl, reads⟩
  apply (ensures_asn1ReadTlv reads.bodyInside.asn1Init asn1TagOid).bind
  rintro ⟨oid, ext⟩ oidReads
  have begins := oidReads.begins_window
  rw [window_asn1Init] at begins
  apply (ensures_readCritical oidReads.leftInside begins).bind
  rintro ⟨critical, ext⟩ ⟨extInside, notCritical⟩
  apply (ensures_asn1ReadTlv extInside asn1TagOctetString).bind
  rintro ⟨value, ext⟩ valueReads
  apply (ensures_matchOid oidReads.bodyInside _ _).bind
  intro recognised which
  have start : Extensions.Sound der { state with cursor := exts } := ⟨reads.leftInside, sound.san⟩
  cases recognised with
  | some parse =>
    have mem := which.resolve_right fun absent => by cases absent.1
    obtain ⟨known, keeps⟩ := keepsExtensions_of_mem mem
    apply (keeps value _ valueReads.bodyInside start).mono
    rintro later ⟨cursorEq, sanInside⟩
    have readsLater : Reads der state.cursor asn1TagSequence body later.cursor := by
      rw [cursorEq]
      exact reads
    refine ⟨⟨readsLater.leftInside, sanInside⟩, body, readsLater, ?_⟩
    -- The identifier that the parser compared is the one of the extension.
    rintro other ⟨rest, flag, after, first, -⟩
    rw [← (begins.unique first).2.1]
    exact known
  | none =>
    refine ensures_require_bind rfl fun clear => ?_
    exact ⟨start, body, reads, fun other critical => absurd critical (notCritical clear other)⟩

/-- Every critical extension of the bytes is known or is in what is left of them. -/
def ReadsKnown (bytes left : List UInt8) (lists : List UInt8 → List UInt8 → Prop) : Prop :=
  ∀ oid, lists bytes oid → Recognised oid ∨ lists left oid

lemma ReadsKnown.trans {bytes middle left : List UInt8}
    {lists : List UInt8 → List UInt8 → Prop} (first : ReadsKnown bytes middle lists)
    (second : ReadsKnown middle left lists) : ReadsKnown bytes left lists :=
  fun oid lists => (first oid lists).elim .inl (second oid)

lemma ensures_parseExtensions (sound : state.Sound der) :
    Safely (parseExtensions der state) fun later =>
      later.Sound der ∧ asn1Remaining later.cursor < asn1Remaining state.cursor ∧
        ReadsKnown (state.cursor.window der) (later.cursor.window der) HasCritical := by
  apply (ensures_asn1Open sound.cursor asn1TagCtx3).bind
  rintro ⟨extsOuter, left⟩ ⟨field, rfl, reads⟩
  apply (ensures_asn1Open reads.bodyInside.asn1Init asn1TagSequence).bind
  rintro ⟨exts, after⟩ ⟨body, rfl, seqReads⟩
  have start : Extensions.Sound der { state with cursor := asn1Init body } ∧
      ReadsKnown (body.bytes der) ((asn1Init body).window der) ListsCritical := by
    refine ⟨⟨seqReads.bodyInside.asn1Init, sound.san⟩, ?_⟩
    rw [window_asn1Init]
    exact fun oid => .inr
  refine (ensures_whileRemaining Extensions.cursor (fun current => current.Sound der ∧
      ReadsKnown (body.bytes der) (current.cursor.window der) ListsCritical)
    (fun _ kept => kept.1.cursor) ?_ start).bind ?_
  · rintro current ⟨kept, known⟩ -
    apply (ensures_parseExtension kept).mono
    rintro later ⟨laterSound, ext, extReads, extKnown⟩
    refine ⟨⟨laterSound, ?_⟩, extReads.progress⟩
    intro oid lists
    rcases known oid lists with done | lists
    · exact .inl done
    rcases lists.of_begins extReads.begins_window with critical | lists
    · exact .inl (extKnown oid critical)
    · exact .inr lists
  · rintro final ⟨⟨kept, known⟩, empty⟩
    refine ⟨⟨reads.leftInside, kept.san⟩, reads.progress, ?_⟩
    intro oid has
    rcases has.of_begins reads.begins_window with ⟨-, exts, after, begins, lists⟩ | has
    · have opened := seqReads.begins_window
      rw [window_asn1Init] at opened
      rw [← (opened.unique begins).2.1] at lists
      refine .inl ((known oid lists).resolve_right fun lists => ?_)
      rw [empty] at lists
      exact not_listsCritical_nil oid lists
    · exact .inr has

/-- A value that is not the extension field holds no extension. -/
theorem Reads.readsKnown (reads : Reads der c tag body left) (other : tag ≠ asn1TagCtx3) :
    ReadsKnown (c.window der) (left.window der) HasCritical := by
  intro oid has
  rcases has.of_begins reads.begins_window with ⟨tagEq, -⟩ | has
  · exact absurd tagEq other
  · exact .inr has

lemma ensures_parseTail (sound : state.Sound der) :
    Safely (parseTail der state) fun later =>
      later.Sound der ∧ asn1Remaining later.cursor < asn1Remaining state.cursor ∧
        ReadsKnown (state.cursor.window der) (later.cursor.window der) HasCritical := by
  apply (ensures_asn1PeekTag sound.cursor).bind
  intro tag tagEq
  split
  · rename_i unique
    apply (ensures_asn1SkipAny sound.cursor).bind
    rintro left ⟨found, body, reads⟩
    refine ⟨⟨reads.leftInside, sound.san⟩, reads.progress, reads.readsKnown ?_⟩
    rw [tagEq, head?_of_begins reads.begins_window] at unique
    rcases unique with same | same
    · rw [some_inj.mp same]
      decide
    · rw [some_inj.mp same]
      decide
  · split
    · exact ensures_parseExtensions sound
    · rfl

/-! ## The certificate -/

/-- The version field of a certificate body holds the number 255. -/
def Version255 (tbs : List UInt8) : Prop :=
  ∃ field after rest, Begins tbs asn1TagCtx0 field after ∧
    Begins field asn1TagInteger [0, 0xFF] rest

/-- The version that the parser computes wraps for the number 255 only. -/
theorem version_mem_iff {byte : UInt8} (small : byte + 1 ≤ 3) :
    byte + 1 ∈ ([1, 2, 3] : List UInt8) ↔ ¬ byte = 0xFF := by
  have bound := byte.toNat_lt
  simp only [mem_cons, not_mem_nil, or_false, ← UInt8.toNat_inj, UInt8.toNat_add,
    UInt8.le_iff_toNat_le, UInt8.reduceToNat] at small ⊢
  omega

/-- The one digit that is read is 255 if and only if the integer is 255 with its padding. -/
theorem ReadsUint.version255_iff {digits : Span} {byte : UInt8}
    (uintReads : ReadsUint der c digits left) (single : digits.len = 1)
    (byteEq : der[digits.start]? = some byte) :
    (∃ rest, Begins (c.window der) asn1TagInteger [0, 0xFF] rest) ↔ byte = 0xFF := by
  have digitsEq := bytes_of_len_eq_one single byteEq
  obtain ⟨body, reads, forms⟩ := uintReads.body
  rcases forms with ⟨first, rfl, firstEq, low⟩ | ⟨first, bodyEq, firstEq, high⟩
  · rw [byteEq] at firstEq
    obtain rfl := some_inj.mp firstEq
    refine iff_of_false ?_ ?_
    · rintro ⟨rest, begins⟩
      have bodies := (reads.begins_window.unique begins).2.1
      rw [digitsEq] at bodies
      cases bodies
    · rintro rfl
      exact absurd low (by decide)
  · have begins := reads.begins_window
    rw [bodyEq, digitsEq] at begins
    constructor
    · rintro ⟨rest, other⟩
      have bodies := (begins.unique other).2.1
      exact (cons.inj (cons.inj bodies).2).1
    · rintro rfl
      exact ⟨_, begins⟩

lemma ensures_parseVersion {tbs : Cursor} (inside : tbs.Inside der) :
    Safely (parseVersion der tbs) fun parsed =>
      parsed.2.Inside der ∧ ReadsKnown (tbs.window der) (parsed.2.window der) HasCritical ∧
        (parsed.1 ∈ ([1, 2, 3] : List UInt8) ↔ ¬ Version255 (tbs.window der)) := by
  apply (ensures_asn1PeekTag inside).bind
  intro tag tagEq
  split
  · apply (ensures_asn1Open inside asn1TagCtx0).bind
    rintro ⟨vex, left⟩ ⟨field, rfl, reads⟩
    apply (ensures_asn1ReadUint reads.bodyInside.asn1Init).bind
    rintro ⟨digits, vex⟩ uintReads
    refine ensures_require_bind rfl fun length => ?_
    have fits : digits.start + digits.len ≤ der.length := uintReads.inside
    apply (ensures_byteAt (by omega : digits.start < der.length)).bind
    intro byte byteEq
    refine ensures_require_bind rfl fun small => ?_
    refine ⟨reads.leftInside, reads.readsKnown (by decide), ?_⟩
    have holds255 := uintReads.version255_iff length byteEq
    rw [window_asn1Init] at holds255
    rw [version_mem_iff small, ← holds255]
    apply not_congr
    constructor
    · rintro ⟨rest, begins⟩
      exact ⟨_, _, rest, reads.begins_window, begins⟩
    · rintro ⟨other, after, rest, first, begins⟩
      rw [← (reads.begins_window.unique first).2.1] at begins
      exact ⟨rest, begins⟩
  · rename_i absent
    refine ⟨inside, fun oid => .inr, ?_⟩
    apply iff_of_true mem_cons_self
    rintro ⟨field, after, rest, begins, -⟩
    refine absent ⟨?_, tagEq.trans (head?_of_begins begins)⟩
    have length := inside.length_window
    rw [begins.encoded] at length
    simp only [encodeTlv, length_cons, cons_append] at length
    unfold asn1Remaining
    omega

lemma ensures_readSequence (inside : c.Inside der) :
    Safely (readSequence der c) fun read =>
      Reads der c asn1TagSequence read.1.2 read.2 ∧ read.1.1.Inside der ∧ read.1.1.start = c.p ∧
        read.1.1.bytes der = encodeTlv asn1TagSequence (read.1.2.bytes der) := by
  apply (ensures_asn1ReadTlv inside asn1TagSequence).bind
  rintro ⟨body, left⟩ (reads : Reads der c asn1TagSequence body left)
  have begins := reads.begins
  have ends := reads.ends
  have bodyFits : body.start + body.len ≤ der.length := reads.bodyInside
  have ordered := reads.leftInside.ordered
  have sameStop := reads.sameStop
  have lengths := congrArg length reads.encoded
  rw [length_append, inside.length_window, reads.leftInside.length_window] at lengths
  have size : (encodeTlv asn1TagSequence (body.bytes der)).length =
      body.start + body.len - c.p := by omega
  refine ⟨reads, ?_, rfl, ?_⟩
  · change c.p + (body.start + body.len - c.p) ≤ der.length
    omega
  · have window : (Cursor.window der ⟨c.p, c.stop⟩).take (body.start + body.len - c.p) =
        Span.bytes der ⟨c.p, body.start + body.len - c.p⟩ := take_window (by omega)
    rw [← window]
    calc (c.window der).take (body.start + body.len - c.p)
        = (encodeTlv asn1TagSequence (body.bytes der) ++ left.window der).take
            (encodeTlv asn1TagSequence (body.bytes der)).length := by rw [← reads.encoded, size]
      _ = encodeTlv asn1TagSequence (body.bytes der) := take_left

lemma ensures_parseValidity (inside : c.Inside der) :
    Safely (parseValidity der c) fun parsed =>
      ∃ body, Reads der c asn1TagSequence body parsed.2 := by
  apply (ensures_asn1Open inside asn1TagSequence).bind
  rintro ⟨val, left⟩ ⟨body, rfl, reads⟩
  apply (ensures_asn1ReadTime reads.bodyInside.asn1Init).bind
  rintro ⟨notBefore, val⟩ ⟨_, _, beforeReads⟩
  apply (ensures_asn1ReadTime beforeReads.leftInside).bind
  rintro ⟨notAfter, val⟩ _
  exact ensures_require_bind rfl fun _ => ⟨body, reads⟩

/-- The spans that a parsed certificate stores. -/
def CertSpans.spans (cert : CertSpans) : List Span :=
  [cert.tbs, cert.sig, cert.issuer, cert.subject] ++ cert.cn.toList ++ cert.san ++ cert.pubkey.spans

/-- A span is the first value inside the outer SEQUENCE, with its header. -/
structure SignedPart (der : List UInt8) (tbs : Span) (body : List UInt8) : Prop where
  located : ∃ content rest after, Begins der asn1TagSequence content rest ∧
    Begins content asn1TagSequence body after ∧
    tbs.start = (encodeTlv asn1TagSequence content).length - content.length
  bytes : tbs.bytes der = encodeTlv asn1TagSequence body
  length : tbs.len = (encodeTlv asn1TagSequence body).length

/-- What the parser guarantees of a certificate whatever its version field holds. -/
structure Parsed (der : List UInt8) (cert : CertSpans) (body : List UInt8) : Prop where
  spans : ∀ span ∈ cert.spans, span.Inside der
  signed : SignedPart der cert.tbs body
  critical : ∀ oid, HasCritical body oid → Recognised oid
  version : cert.version ∈ ([1, 2, 3] : List UInt8) ↔ ¬ Version255 body

lemma signedPart_of_reads {outer : Span} {after : Cursor} {tbs : Span}
    (outerReads : Reads der (asn1Init ⟨0, der.length⟩) asn1TagSequence outer left)
    (reads : Reads der (asn1Init outer) asn1TagSequence body after)
    (starts : tbs.start = outer.start) (inside : tbs.Inside der)
    (bytes : tbs.bytes der = encodeTlv asn1TagSequence (body.bytes der)) :
    SignedPart der tbs (body.bytes der) := by
  have outerBegins := outerReads.begins_window
  have begins := reads.begins_window
  rw [window_asn1Init] at outerBegins begins
  rw [Span.bytes, drop_zero, take_length] at outerBegins
  refine ⟨⟨_, _, _, outerBegins, begins, ?_⟩, bytes, ?_⟩
  · have lengths := congrArg length outerBegins.encoded
    have ends := outerReads.ends
    have ordered := outerReads.leftInside.ordered
    have fits := outerReads.leftInside.fits
    have sameStop : left.stop = 0 + der.length := outerReads.sameStop
    rw [length_append, outerReads.leftInside.length_window] at lengths
    rw [starts, outerReads.bodyInside.length_bytes]
    omega
  · rw [← bytes, inside.length_bytes]

lemma ensures_x509Parse (der : List UInt8) :
    Safely (x509Parse der) fun cert => ∃ body, Parsed der cert body := by
  have whole : Cursor.Inside der (asn1Init ⟨0, der.length⟩) :=
    Span.Inside.asn1Init (le_of_eq (zero_add _))
  apply (ensures_asn1Open whole asn1TagSequence).bind
  rintro ⟨cert, rest⟩ ⟨outer, rfl, outerReads⟩
  apply (ensures_readSequence outerReads.bodyInside.asn1Init).bind
  rintro ⟨⟨tbsSpan, tbsBody⟩, cert⟩ ⟨tbsReads, tbsInside, tbsStarts, tbsBytes⟩
  apply (ensures_parseAlg tbsReads.leftInside).bind
  rintro ⟨outerSigAlg, cert⟩ ⟨_, outerAlgReads⟩
  apply (ensures_asn1ReadBitString outerAlgReads.leftInside).bind
  rintro ⟨sig, cert⟩ ⟨sigInside, -⟩
  apply (ensures_parseVersion tbsReads.bodyInside.asn1Init).bind
  rintro ⟨version, tbs⟩ ⟨tbsInside1, known1, versionIff⟩
  apply (ensures_asn1ReadUint tbsInside1).bind
  rintro ⟨serial, tbs⟩ serialReads
  obtain ⟨_, serialReads, -⟩ := serialReads.body
  apply (ensures_parseAlg serialReads.leftInside).bind
  rintro ⟨tbsSigAlg, tbs⟩ ⟨_, algReads⟩
  refine ensures_require_bind rfl fun _ => ?_
  apply (ensures_readSequence algReads.leftInside).bind
  rintro ⟨⟨issuer, _⟩, tbs⟩ ⟨issuerReads, issuerInside, -⟩
  apply (ensures_parseValidity issuerReads.leftInside).bind
  rintro ⟨⟨notBefore, notAfter⟩, tbs⟩ ⟨_, validityReads⟩
  apply (ensures_readSequence validityReads.leftInside).bind
  rintro ⟨⟨subject, dn⟩, tbs⟩ ⟨subjectReads, subjectInside, -⟩
  apply (ensures_scanDnForCn subjectReads.bodyInside).bind
  intro cn cnInside
  apply (ensures_parseSpki subjectReads.leftInside).bind
  rintro ⟨pubkey, tbs⟩ ⟨keyInside, _, keyReads⟩
  -- No field in front of the extensions is the extension field.
  have known : ReadsKnown ((asn1Init tbsBody).window der) (tbs.window der) HasCritical :=
    known1.trans <| (serialReads.readsKnown (by decide)).trans <|
      (algReads.readsKnown (by decide)).trans <| (issuerReads.readsKnown (by decide)).trans <|
      (validityReads.readsKnown (by decide)).trans <|
      (subjectReads.readsKnown (by decide)).trans (keyReads.readsKnown (by decide))
  have start : Extensions.Sound der ⟨tbs, [], false⟩ ∧
      ReadsKnown ((asn1Init tbsBody).window der) (tbs.window der) HasCritical :=
    ⟨⟨keyReads.leftInside, nofun⟩, known⟩
  refine (ensures_whileRemaining Extensions.cursor (fun current => current.Sound der ∧
      ReadsKnown ((asn1Init tbsBody).window der) (current.cursor.window der) HasCritical)
    (fun _ kept => kept.1.cursor) ?_ start).bind ?_
  · rintro current ⟨kept, known⟩ -
    apply (ensures_parseTail kept).mono
    rintro later ⟨laterSound, progress, laterKnown⟩
    exact ⟨⟨laterSound, known.trans laterKnown⟩, progress⟩
  · rintro final ⟨⟨kept, known⟩, empty⟩
    rw [window_asn1Init] at known versionIff
    rw [empty] at known
    refine ⟨tbsBody.bytes der, ?_, signedPart_of_reads outerReads tbsReads tbsStarts tbsInside
      tbsBytes, ?_, versionIff⟩
    · intro span mem
      simp only [CertSpans.spans, mem_append, mem_cons, not_mem_nil, or_false, mem_toList] at mem
      rcases mem with ((((rfl | rfl | rfl | rfl) | found) | found) | found)
      · exact tbsInside
      · exact sigInside
      · exact issuerInside
      · exact subjectInside
      · exact cnInside span found
      · exact kept.san span found
      · exact keyInside span found
    · intro oid has
      exact (known oid has).resolve_right (not_hasCritical_nil oid)

/-- A parser run ends inside the input, and what it accepts is as a certificate should be. -/
structure ParsesSafely (der : List UInt8) : Prop where
  ends : x509Parse der ≠ .error .endless
  inside : x509Parse der ≠ .error .outside
  accepted : ∀ cert, x509Parse der = .ok cert → (∀ span ∈ cert.spans, span.Inside der) ∧
    (∃ body, SignedPart der cert.tbs body ∧ ∀ oid, HasCritical body oid → Recognised oid) ∧
    cert.version ∈ ([1, 2, 3] : List UInt8)

/-- The version field of a certificate holds the number 255. -/
def HasVersion255 (der : List UInt8) : Prop :=
  ∃ content rest body after, Begins der asn1TagSequence content rest ∧
    Begins content asn1TagSequence body after ∧ Version255 body

lemma Parsed.hasVersion255_iff {cert : CertSpans} {body : List UInt8}
    (parsed : Parsed der cert body) :
    HasVersion255 der ↔ Version255 body := by
  obtain ⟨content, rest, after, outer, inner, -⟩ := parsed.signed.located
  constructor
  · rintro ⟨content', rest', body', after', outer', inner', version⟩
    obtain ⟨-, rfl, -⟩ := outer.unique outer'
    rwa [(inner.unique inner').2.1]
  · exact fun version => ⟨content, rest, body, after, outer, inner, version⟩

/-- The parser is safe for every input but for one version number, unless it rejects it for another
reason. -/
theorem x509Parse_safe_iff (der : List UInt8) :
    ParsesSafely der ↔ (HasVersion255 der → ∀ cert, x509Parse der ≠ .ok cert) := by
  have ensures := ensures_x509Parse der
  constructor
  · intro safe version cert accepted
    obtain ⟨body, parsed⟩ := ensures.of_ok accepted
    exact parsed.version.mp (safe.accepted cert accepted).2.2 (parsed.hasVersion255_iff.mp version)
  · intro other
    refine ⟨fun failed => ?_, fun failed => ?_, fun cert accepted => ?_⟩
    · cases ensures.of_error failed
    · cases ensures.of_error failed
    · obtain ⟨body, parsed⟩ := ensures.of_ok accepted
      refine ⟨parsed.spans, ⟨body, parsed.signed, parsed.critical⟩,
        parsed.version.mpr fun version => ?_⟩
      exact other (parsed.hasVersion255_iff.mpr version) cert accepted

/-- A certificate whose version field is the number 255. -/
def certificate255 : List UInt8 :=
  [0x30, 0x46, 0x30, 0x3C, 0xA0, 0x04, 0x02, 0x02, 0x00, 0xFF, 0x02, 0x01, 0x01, 0x30, 0x03,
    0x06, 0x01, 0x2A, 0x30, 0x00, 0x30, 0x1E, 0x17, 0x0D, 0x37, 0x30, 0x30, 0x31, 0x30, 0x31,
    0x30, 0x30, 0x30, 0x30, 0x30, 0x30, 0x5A, 0x17, 0x0D, 0x37, 0x30, 0x30, 0x31, 0x30, 0x31,
    0x30, 0x30, 0x30, 0x30, 0x30, 0x30, 0x5A, 0x30, 0x00, 0x30, 0x08, 0x30, 0x03, 0x06, 0x01,
    0x2A, 0x03, 0x01, 0x00, 0x30, 0x03, 0x06, 0x01, 0x2A, 0x03, 0x01, 0x00]

/-- The version that is stored for it is 0. -/
theorem certificate255_not_parsesSafely : ¬ ParsesSafely certificate255 := by
  intro safe
  have version : (x509Parse certificate255).map CertSpans.version = .ok 0 := by decide +kernel
  cases parsed : x509Parse certificate255 with
  | error stop =>
    rw [parsed] at version
    cases version
  | ok cert =>
    rw [parsed] at version
    have zero : cert.version = 0 := Except.ok.inj version
    have known := (safe.accepted cert parsed).2.2
    rw [zero] at known
    exact absurd known (by decide)

end CupidOs.X509.Spans
