import Zatca.Core.Certificates
import Zatca.Server.RunOnboarding
set_option autoImplicit false
namespace Zatca
open Interaction

variable (P : CertificateParsers)

/-- The other readers see this certificate in the text. -/
structure ReadersSee (text : String) (cert : X509Certificate) : Prop where
  expiry : getCertificateExpirationDate P text = .ok cert.validTo
  validity : ∀ now, isCertificateValid P text now = cert.validAt now
  verified : ∀ privateKey now,
    verifyCertificate P text privateKey now = .ok (verification P cert privateKey now)

/-- What the signer parses. -/
def signerCertificate (text : String) : Option X509Certificate :=
  P.x509 (String.ofList (wrapCertificateString (cleanUpCertificateString text.toList)))

/-- An exchange with the gateway that ends with this production certificate does not fail at its
expiry. -/
def OnboardsWith (text : String) : Prop :=
  ∀ (D : Deps) (args : RunOnboardingArgs) (existing : TenantRecord) (result : OnboardingResult),
    D.getExpiry = getCertificateExpirationDate P → result.productionCertificate = text →
    result.complianceTestReport.passed = true →
    handshake D { args with onboardFn := some fun _ => .ret result } existing ≠
      .throw (expiryNotParsed args.tenantRef)

/-- A text that the signer accepts is accepted by every reader as the same certificate, and the signer
accepts it under the hash of the body. -/
structure ReadAlike (body : List Char) (text : String) : Prop where
  readers : ∀ info, extractCertificateInfo P text = .ok info →
    ∃ cert, signerCertificate P text = some cert ∧ ReadersSee P text cert
  onboarding : ∀ info, extractCertificateInfo P text = .ok info → OnboardsWith P text
  hash : ∃ info, extractCertificateInfo P text = .ok info ∧
    info.hash = getCertificateHash P (String.ofList body)

/-- The text is framed, its lines end with line feeds, and the begin line begins a line. -/
def Presentation.Plain (p : Presentation) : Prop :=
  p.framing = some .lf ∧ (p.before = [] ∨ p.before.getLast? = some '\n')

instance (p : Presentation) : Decidable p.Plain := inferInstanceAs (Decidable (_ ∧ _))

variable {P} {body : List Char} {p : Presentation}

theorem cleanUp_wrap (h : IsBody body) :
    cleanUpCertificateString (wrapCertificateString body) = body := by
  have hlf : cleanUpCertificateString
      ([] ++ (Pem.frame "CERTIFICATE".toList .lf body ++ [])) = body :=
    cleanUp_lf h (by simp) (by simp)
  rw [List.nil_append,List.append_nil] at hlf
  rw [wrapCertificateString_eq,hlf]

theorem extract_congr {s t : String} (h : cleanUpCertificateString s.toList =
    cleanUpCertificateString t.toList) : extractCertificateInfo P s = extractCertificateInfo P t := by
  rw [extractCertificateInfo,extractCertificateInfo,h]

theorem extract_of_x509_none {s : String} (h : signerCertificate P s = none) :
    extractCertificateInfo P s = .error notParsed := by
  rw [signerCertificate] at h
  simp only [extractCertificateInfo,h]

theorem hash_of_extract {s : String} {info : CertificateInfo}
    (h : extractCertificateInfo P s = .ok info) :
    info.hash = getCertificateHash P (String.ofList (cleanUpCertificateString s.toList)) := by
  simp only [extractCertificateInfo] at h
  split at h
  · cases h
  · split at h
    · cases h
    · split at h
      · cases h
      · cases h
        rfl

/-- What the parser takes as it is, every reader sees. -/
theorem readersSee_of_x509 {text : String} {cert : X509Certificate} (h : P.x509 text = some cert) :
    ReadersSee P text cert where
  expiry := by rw [getCertificateExpirationDate,h]
  validity now := by rw [isCertificateValid,h]
  verified privateKey now := by rw [verifyCertificate,h]

theorem onboardsWith_of_x509 {text : String} {cert : X509Certificate} (h : P.x509 text = some cert) :
    OnboardsWith P text := by
  intro D args existing result hexpiry htext hpassed hthrow
  have hparsed : D.getExpiry result.productionCertificate = .ok cert.validTo := by
    rw [hexpiry,htext,getCertificateExpirationDate,h]
  simp [handshake,Program.embed,hpassed,hparsed] at hthrow

/-- A text that the signer accepts and the parser does not is not read alike. -/
theorem not_readAlike_of_x509_none {text : String} {info : CertificateInfo}
    (hinfo : extractCertificateInfo P text = .ok info) (h : P.x509 text = none) :
    ¬ ReadAlike P body text := by
  intro hread
  obtain ⟨cert,-,hsee⟩ := hread.readers info hinfo
  have hexpiry := hsee.expiry
  rw [getCertificateExpirationDate,h] at hexpiry
  cases hexpiry

section text
variable {text : List Char} {info : CertificateInfo} (hbody : IsBody body)
  (hclean : cleanUpCertificateString text = body)
  (hinfo : extractCertificateInfo P (String.ofList (wrapCertificateString body)) = .ok info)
include hbody hclean hinfo

/-- What is stripped to the body is to the signer what it is in its own frame. -/
theorem extract_of_cleanUp : extractCertificateInfo P (String.ofList text) = .ok info := by
  rw [← hinfo]
  exact extract_congr (by rw [String.toList_ofList,String.toList_ofList,hclean,cleanUp_wrap hbody])

theorem readAlike_of_cleanUp
    (hx : P.x509 (String.ofList text) = P.x509 (String.ofList (wrapCertificateString body))) :
    ReadAlike P body (String.ofList text) := by
  have hwrapped : cleanUpCertificateString (wrapCertificateString body) = body := cleanUp_wrap hbody
  have hsigner : signerCertificate P (String.ofList text) =
      P.x509 (String.ofList (wrapCertificateString body)) := by
    rw [signerCertificate,String.toList_ofList,hclean]
  cases hcert : P.x509 (String.ofList (wrapCertificateString body)) with
  | none =>
    rw [extract_of_x509_none (by rw [signerCertificate,String.toList_ofList,hwrapped,hcert])] at hinfo
    cases hinfo
  | some cert =>
    rw [hcert] at hx hsigner
    exact {
      readers := fun _ _ => ⟨cert,hsigner,readersSee_of_x509 hx⟩
      onboarding := fun _ _ => onboardsWith_of_x509 hx
      hash := ⟨info,extract_of_cleanUp hbody hclean hinfo,by
        rw [hash_of_extract hinfo,String.toList_ofList,hwrapped]⟩ }

end text

/-- A text that the signer does not accept is not read alike. -/
theorem not_readAlike_of_refused {text : String} (h : signerCertificate P text = none) :
    ¬ ReadAlike P body text := by
  intro hread
  obtain ⟨info,hinfo,-⟩ := hread.hash
  rw [extract_of_x509_none h] at hinfo
  cases hinfo

/-- For every certificate body that the signer accepts in its frame: a presentation of it is read alike
if and only if it is plain. -/
theorem readAlike_iff (P : CertificateParsers) (body : List Char) (p : Presentation)
    (hbody : IsBody body) (hcert : ∃ info,
      extractCertificateInfo P (String.ofList (wrapCertificateString body)) = .ok info) :
    ReadAlike P body (String.ofList (p.text body)) ↔ p.Plain := by
  obtain ⟨info,hinfo⟩ := hcert
  obtain ⟨framing,before,after,hbefore,hafter⟩ := p
  cases framing with
  | none =>
    have htext : Presentation.text ⟨none,before,after,hbefore,hafter⟩ body =
        before ++ (body ++ after) := rfl
    have hsame := extract_of_cleanUp hbody (cleanUp_bare hbody hbefore hafter) hinfo
    have hno : ¬ ReadAlike P body _ :=
      not_readAlike_of_x509_none hsame (x509_bare P hbody hbefore hafter)
    rw [htext]
    exact iff_of_false hno (by simp [Presentation.Plain])
  | some newline =>
    have htext : Presentation.text ⟨some newline,before,after,hbefore,hafter⟩ body =
        before ++ (Pem.frame "CERTIFICATE".toList newline body ++ after) := rfl
    rw [htext]
    cases newline with
    | crlf =>
      have hrefused : signerCertificate P (String.ofList
          (before ++ (Pem.frame "CERTIFICATE".toList .crlf body ++ after))) = none := by
        rw [signerCertificate,String.toList_ofList,cleanUp_crlf hbody hbefore hafter]
        exact x509_begin_twice P hbody
      exact iff_of_false (not_readAlike_of_refused hrefused) (by simp [Presentation.Plain])
    | lf =>
      have hclean := cleanUp_lf hbody hbefore hafter
      by_cases hstart : before = [] ∨ before.getLast? = some '\n'
      · have hframed := x509_framed P hbody hbefore hafter .lf hstart
        exact iff_of_true (readAlike_of_cleanUp hbody hclean hinfo hframed) ⟨rfl,hstart⟩
      · have hnone := x509_indented P hbody hbefore hafter .lf hstart
        have hsame := extract_of_cleanUp hbody hclean hinfo
        exact iff_of_false (not_readAlike_of_x509_none hsame hnone) fun h => hstart h.2

theorem extract_of_x509 {s : String} {cert : X509Certificate} {fidm : FidmCertificate}
    (hx : signerCertificate P s = some cert) (hserial : (hexNumber cert.serialNumber).isSome)
    (hfidm : P.fromPEM (String.ofList (wrapCertificateString
      (cleanUpCertificateString s.toList))) = some fidm) :
    ∃ info, extractCertificateInfo P s = .ok info := by
  rw [signerCertificate] at hx
  obtain ⟨serial,hnumber⟩ := Option.isSome_iff_exists.1 hserial
  simp only [extractCertificateInfo,hx,hfidm,hnumber]
  exact ⟨_,rfl⟩

namespace Sample

/-- The parsers know the certificate of the fixtures in whatever text its body is found. -/
theorem extract_certificateBody {s : String}
    (h : cleanUpCertificateString s.toList = certificateBody) :
    ∃ info, extractCertificateInfo certificateParsers s = .ok info := by
  have hx : signerCertificate certificateParsers s = some certificate := by
    rw [signerCertificate,h]
    exact x509_certificateParsers
  exact extract_of_x509 hx (by decide) rfl

/-- As a file has it: framed, and with a line feed at its end. -/
def pemFile : Presentation := ⟨some .lf,[],['\n'],forall_mem_of_all (by decide),forall_mem_of_all (by decide)⟩

end Sample

theorem readAlike_pemFile : ReadAlike Sample.certificateParsers Sample.certificateBody
    (String.ofList (Sample.pemFile.text Sample.certificateBody)) := by
  have hclean : cleanUpCertificateString (wrapCertificateString Sample.certificateBody) =
      Sample.certificateBody := cleanUp_wrap Sample.isBody_certificateBody
  exact (readAlike_iff _ _ Sample.pemFile Sample.isBody_certificateBody
    (Sample.extract_certificateBody (by rw [String.toList_ofList,hclean]))).2 (by decide)

/-- The body that `issueCSIDS` decodes: the signer accepts it, and its expiry is not found. -/
theorem readAlike_fails_bare :
    (∃ info, extractCertificateInfo Sample.certificateParsers
      (String.ofList Sample.certificateBody) = .ok info) ∧
    getCertificateExpirationDate Sample.certificateParsers (String.ofList Sample.certificateBody) =
      .error notParsed ∧
    ¬ ReadAlike Sample.certificateParsers Sample.certificateBody
      (String.ofList Sample.certificateBody) := by
  have hbare : ([] : List Char) ++ (Sample.certificateBody ++ []) = Sample.certificateBody := by
    rw [List.nil_append,List.append_nil]
  have hclean : cleanUpCertificateString ([] ++ (Sample.certificateBody ++ [])) = _ :=
    cleanUp_bare Sample.isBody_certificateBody (by simp) (by simp)
  have hnone : Sample.certificateParsers.x509
      (String.ofList ([] ++ (Sample.certificateBody ++ []))) = none :=
    x509_bare _ Sample.isBody_certificateBody (by simp) (by simp)
  rw [hbare] at hclean hnone
  have hextract := Sample.extract_certificateBody
    (s := String.ofList Sample.certificateBody) (by rw [String.toList_ofList,hclean])
  obtain ⟨info,hinfo⟩ := hextract
  exact ⟨⟨info,hinfo⟩,by rw [getCertificateExpirationDate,hnone],
    not_readAlike_of_x509_none hinfo hnone⟩

end Zatca
