import NovaVpn.Core.Numerals
import NovaVpn.Profiles.Dangerous
import NovaVpn.Profiles.OvpnTokens

/-!
# Exporting a profile

`exportOvpn` of `Profiles/OvpnParser.cpp` writes the fields of a profile as
they are, and the parser tokenises, trims and splits what it reads. A profile is
`Writable` if it redirects the gateway, which an export cannot turn off, its
one-line settings are plain text, and its certificates do not contain a closing
tag. The items of an export are those the exporter means
(`items_exportText`).
-/

namespace NovaVpn.Profiles

/-! ## The exporter -/

def remoteLine (remote : RemoteEntry) : List Char :=
  "remote ".toList ++ remote.host.toList ++ ' ' :: Nat.toDigits 10 remote.port.toNat ++
    ' ' :: remote.transport.toText ++ ['\n']

/-- Public PKI material, inlined. -/
def inlineBlock (tag : List Char) (pem : String) : List Char :=
  if pem.isEmpty then []
  else
    '<' :: tag ++ ">\n".toList ++ pem.toList ++
      (if pem.toList.getLast? = some '\n' then [] else ['\n']) ++ "</".toList ++ tag ++ ">\n".toList

/-- What `exportOvpn` appends. -/
def exportText (p : Profile) : List Char :=
  "# Exported by NovaVPN\n".toList ++ "client\n".toList ++ "dev tun\n".toList ++
  p.remotes.flatMap remoteLine ++
  (if p.options.shuffleRemotes then "remote-random\n".toList else []) ++
  (if p.authMethod = .userPassword ∨ p.authMethod = .certificateAndPassword ∨
      p.authMethod = .userPasswordTotp then "auth-user-pass\n".toList else []) ++
  (if p.options.redirectGateway then "redirect-gateway def1\n".toList else []) ++
  (if p.options.cipherOverride.isEmpty then []
    else "cipher ".toList ++ p.options.cipherOverride.toList ++ ['\n']) ++
  (if p.options.authDigestOverride.isEmpty then []
    else "auth ".toList ++ p.options.authDigestOverride.toList ++ ['\n']) ++
  (if p.certificates.verifyX509Name.isEmpty then []
    else "verify-x509-name ".toList ++ p.certificates.verifyX509Name.toList ++ " name\n".toList) ++
  (p.options.mtu.elim [] fun mtu =>
    "tun-mtu ".toList ++ Nat.toDigits 10 mtu.toNat ++ ['\n']) ++
  inlineBlock "ca".toList p.certificates.caPem ++
  inlineBlock "cert".toList p.certificates.certificatePem

/-- `exportOvpn`. -/
def exportOvpn (p : Profile) : Result (List Char) :=
  if p.validate.isError then .error p.validate else .ok (exportText p)

/-! ## What should come back -/

/-- The text without the line break that ends its last line. -/
def chomp (text : List Char) : List Char :=
  if text.getLast? = some '\n' then text.dropLast else text

/-- The lines of a text. -/
def rawLines (text : List Char) : List (List Char) :=
  if text.isEmpty then [] else Str.split '\n' (chomp text)

/-- The lines without the white space at their ends. -/
def pemLines (pem : String) : List (List Char) := (rawLines pem.toList).map Str.trimRight

/-- The second profile has the connection settings of the first. -/
structure Agrees (p q : Profile) : Prop where
  remotes : q.remotes.map (fun r => (r.host, r.port, r.transport)) =
    p.remotes.map fun r => (r.host, r.port, r.transport)
  shuffleRemotes : q.options.shuffleRemotes = p.options.shuffleRemotes
  redirectGateway : q.options.redirectGateway = p.options.redirectGateway
  cipher : q.options.cipherOverride = p.options.cipherOverride
  digest : q.options.authDigestOverride = p.options.authDigestOverride
  verifyName : q.certificates.verifyX509Name = p.certificates.verifyX509Name
  mtu : q.options.mtu = p.options.mtu
  password : q.authMethod.requiresPassword = p.authMethod.requiresPassword
  caPem : pemLines q.certificates.caPem = pemLines p.certificates.caPem
  certificatePem : pemLines q.certificates.certificatePem = pemLines p.certificates.certificatePem

/-- No line of the text closes the block of the tag. -/
def Unclosed (tag : List Char) (pem : String) : Prop :=
  ∀ line ∈ pemLines pem, closesTag tag line = false

/-- A setting that comes back from the end of a line. -/
def PlainTail (value : String) : Prop :=
  Plain value.toList ∧ Str.trimRight value.toList = value.toList

/-- The settings that an export keeps. -/
structure Writable (p : Profile) : Prop where
  redirectGateway : p.options.redirectGateway = true
  hosts : ∀ remote ∈ p.remotes, Plain remote.host.toList
  cipher : PlainTail p.options.cipherOverride
  digest : PlainTail p.options.authDigestOverride
  verifyName : Plain p.certificates.verifyX509Name.toList
  caPem : Unclosed "ca".toList p.certificates.caPem
  certificatePem : Unclosed "cert".toList p.certificates.certificatePem

/-! ## The items of what is written -/

/-- In front of any further text, this one gives these items. -/
def Reads (text : List Char) (found : List Item) : Prop :=
  ∀ rest, items (Str.split '\n' (text ++ rest)) = found ++ items (Str.split '\n' rest)

namespace Reads

variable {text text' : List Char} {found found' : List Item}

theorem nil : Reads [] [] := fun _ => rfl

theorem append (h : Reads text found) (h' : Reads text' found') :
    Reads (text ++ text') (found ++ found') := fun rest => by
  rw [List.append_assoc, List.append_assoc, h, h']

theorem ite {c : Prop} [Decidable c] (h : ¬ c → Reads text found) :
    Reads (if c then [] else text) (if c then [] else found) := by
  split
  · exact nil
  · next hc => exact h hc

theorem ite_else {c : Prop} [Decidable c] (h : c → Reads text found) :
    Reads (if c then text else []) (if c then found else []) := by
  split
  · next hc => exact h hc
  · exact nil

theorem flatMap {α : Type} {f : α → List Char} {g : α → Item} {l : List α}
    (h : ∀ a ∈ l, Reads (f a) [g a]) : Reads (l.flatMap f) (l.map g) := by
  induction l with
  | nil => exact nil
  | cons a l ih =>
    rw [List.flatMap_cons, List.map_cons]
    exact append (h a List.mem_cons_self) (ih fun b hb => h b (List.mem_cons_of_mem a hb))

/-- A line of its own. -/
theorem line {line : List Char} (hline : '\n' ∉ line)
    (hitems : ∀ rest, items (line :: rest) = found ++ items rest) : Reads (line ++ ['\n']) found :=
  fun rest => by
    rw [List.append_assoc, List.singleton_append, Str.split,
      List.splitOn_append_cons_self_of_not_mem hline, hitems, Str.split]

end Reads

/-- The keyword of a directive as the exporter writes it. -/
def isKeyword (keyword : List Char) : Bool :=
  !keyword.isEmpty && keyword.all fun c => isPlain c && !Str.isSpace c && c != '<' && c.toLower == c

section Keywords

variable {keyword line : List Char}

theorem isKeyword_iff : isKeyword keyword = true ↔ keyword ≠ [] ∧ ∀ c ∈ keyword,
    isPlain c = true ∧ Str.isSpace c = false ∧ c ≠ '<' ∧ c.toLower = c := by
  simp [isKeyword, and_assoc]

/-- A line that starts with a keyword, once it is trimmed. -/
theorem trim_keyword (h : isKeyword keyword = true) (line : List Char) :
    ∃ tail, Str.trim (keyword ++ ' ' :: line) = keyword ++ tail ∧
      tokens (keyword ++ tail) = keyword :: tokens (Str.trimRight line) := by
  obtain ⟨hne, hkeyword⟩ := isKeyword_iff.mp h
  have hplain : Plain keyword := fun c hc => (hkeyword c hc).1
  have hspace : ∀ c ∈ keyword, Str.isSpace c = false := fun c hc => (hkeyword c hc).2.1
  have hstart : (keyword ++ ' ' :: line).dropWhile Str.isSpace = keyword ++ ' ' :: line := by
    refine Str.dropWhile_isSpace fun c hc => hspace c ?_
    obtain ⟨k, ks, rfl⟩ := List.exists_cons_of_ne_nil hne
    cases hc
    exact List.mem_cons_self
  rw [Str.trim_eq, hstart]
  by_cases hnil : Str.trimRight line = []
  · obtain ⟨w, hw, heq⟩ := Str.exists_trimRight line
    rw [hnil, List.nil_append] at heq
    have hspaces : ∀ c ∈ ' ' :: line, Str.isSpace c = true :=
      List.forall_mem_cons.mpr ⟨rfl, heq ▸ hw⟩
    refine ⟨[], ?_, ?_⟩
    · rw [Str.trimRight_append hspaces, Str.trimRight_of_forall hspace, List.append_nil]
    · rw [List.append_nil, tokens_plain hplain hne, hnil, tokens_nil]
  · refine ⟨' ' :: Str.trimRight line, ?_, tokens_plain_cons hplain hne rfl _⟩
    have hend := Str.trimRight_append_of_ne hnil (keyword ++ [' '])
    rwa [List.append_assoc, List.append_assoc] at hend

theorem openingTag_keyword (h : isKeyword keyword = true) (tail : List Char) :
    openingTag (keyword ++ tail) = none := by
  obtain ⟨hne, hkeyword⟩ := isKeyword_iff.mp h
  obtain ⟨k, ks, rfl⟩ := List.exists_cons_of_ne_nil hne
  refine if_neg fun hopen => ?_
  exact (hkeyword k List.mem_cons_self).2.2.1 (Option.some.inj hopen.1)

theorem toLower_keyword (h : isKeyword keyword = true) : Str.toLower keyword = keyword := by
  obtain ⟨-, hkeyword⟩ := isKeyword_iff.mp h
  rw [Str.toLower, List.map_congr_left fun c hc => (hkeyword c hc).2.2.2, List.map_id']

theorem directiveOf_tokens {raw : List Char} {args : List (List Char)} (h : isKeyword keyword = true)
    (htokens : tokens raw = keyword :: args) :
    directiveOf raw = some (.directive (String.ofList keyword) (args.map String.ofList)) := by
  rw [directiveOf, tokenizeOvpnLine_eq, htokens]
  simp [toLower_keyword h]

/-- The tokens of a text, as arguments. -/
def argsOf (line : List Char) : List String := (tokens line).map String.ofList

/-- A directive with arguments. -/
theorem reads_directive {word : String} (h : isKeyword word.toList = true) (hline : '\n' ∉ line) :
    Reads (word.toList ++ [' '] ++ line ++ ['\n'])
      [.directive word (argsOf (Str.trimRight line))] := by
  obtain ⟨tail, htrim, htokens⟩ := trim_keyword h line
  have hnewline : '\n' ∉ word.toList ++ ' ' :: line := by
    obtain ⟨-, hkeyword⟩ := isKeyword_iff.mp h
    rw [List.mem_append, List.mem_cons]
    rintro (hmem | hmem | hmem)
    · exact absurd (hkeyword '\n' hmem).2.1 (by decide)
    · cases hmem
    · exact hline hmem
  rw [List.append_assoc word.toList, List.singleton_append]
  refine Reads.line hnewline fun rest => ?_
  rw [items_cons, htrim, openingTag_keyword h, directiveOf_tokens h htokens, String.ofList_toList]
  rfl

/-- A directive without. -/
theorem reads_keyword {word : String} (h : isKeyword word.toList = true) :
    Reads (word.toList ++ ['\n']) [.directive word []] := by
  obtain ⟨hne, hkeyword⟩ := isKeyword_iff.mp h
  have hspace : ∀ c ∈ word.toList, Str.isSpace c = false := fun c hc => (hkeyword c hc).2.1
  have htokens := tokens_plain (fun c hc => (hkeyword c hc).1) hne
  refine Reads.line (fun hmem => absurd (hspace '\n' hmem) (by decide)) fun rest => ?_
  have hopen := openingTag_keyword h []
  rw [List.append_nil] at hopen
  rw [items_cons, Str.trim_of_forall hspace, hopen, directiveOf_tokens h htokens,
    String.ofList_toList]
  rfl

end Keywords

/-! ## Inline blocks -/

section Blocks

variable {tag : List Char}

/-- The lines as the reader of a block keeps them. -/
def blockBody (lines : List (List Char)) : List Char :=
  lines.flatMap fun line => Str.trimRight line ++ ['\n']

theorem readInlineBlock_append {lines : List (List Char)}
    (hlines : ∀ line ∈ lines, closesTag tag line = false) {closing : List Char}
    (hclosing : closesTag tag closing = true) (rest : List (List Char)) :
    readInlineBlock tag (lines ++ closing :: rest) = some (blockBody lines, lines.length + 1) := by
  induction lines with
  | nil => rw [List.nil_append, readInlineBlock, if_pos hclosing]; rfl
  | cons line lines ih =>
    obtain ⟨hline, hlines⟩ := List.forall_mem_cons.mp hlines
    rw [List.cons_append, readInlineBlock, if_neg (ne_true_of_eq_false hline), ih hlines]
    simp [blockBody]

theorem closesTag_trimRight (tag line : List Char) :
    closesTag tag (Str.trimRight line) = closesTag tag line := by
  rw [closesTag, Str.trim_trimRight, closesTag]

theorem unclosed_iff {pem : String} :
    Unclosed tag pem ↔ ∀ line ∈ rawLines pem.toList, closesTag tag line = false := by
  simp only [Unclosed, pemLines, List.mem_map, forall_exists_index, and_imp,
    forall_apply_eq_imp_iff₂, closesTag_trimRight]

/-- A tag that the exporter uses. -/
structure IsTag (tag : List Char) : Prop where
  opens : openingTag (Str.trim ('<' :: tag ++ ['>'])) = some tag
  closes : closesTag tag ("</".toList ++ tag ++ ['>']) = true
  oneLine : '\n' ∉ tag

theorem isTag_ca : IsTag "ca".toList := ⟨by decide +kernel, by decide +kernel, by decide⟩
theorem isTag_cert : IsTag "cert".toList := ⟨by decide +kernel, by decide +kernel, by decide⟩

theorem chomp_append (text : List Char) :
    text ++ (if text.getLast? = some '\n' then [] else ['\n']) = chomp text ++ ['\n'] := by
  unfold chomp
  split
  · next hlast =>
    obtain ⟨front, rfl⟩ := List.getLast?_eq_some_iff.mp hlast
    simp
  · rfl

theorem reads_block (h : IsTag tag) {pem : String} (hpem : Unclosed tag pem) :
    Reads (inlineBlock tag pem)
      (if pem.isEmpty then [] else [.block tag (blockBody (rawLines pem.toList))]) := by
  refine Reads.ite fun hne rest => ?_
  have hraw : rawLines pem.toList = Str.split '\n' (chomp pem.toList) := by
    refine if_neg fun hempty => hne ?_
    rw [String.isEmpty_iff, ← String.toList_eq_nil_iff]
    exact List.isEmpty_iff.mp hempty
  have hopening : '\n' ∉ '<' :: tag ++ ['>'] := by simp [h.oneLine]
  have hclosing : '\n' ∉ "</".toList ++ tag ++ ['>'] := by simp [h.oneLine]
  have htext : '<' :: tag ++ ">\n".toList ++ pem.toList ++
        (if pem.toList.getLast? = some '\n' then [] else ['\n']) ++ "</".toList ++ tag ++
        ">\n".toList ++ rest =
      ('<' :: tag ++ ['>']) ++ '\n' ::
        (chomp pem.toList ++ '\n' :: (("</".toList ++ tag ++ ['>']) ++ '\n' :: rest)) := by
    calc _ = '<' :: tag ++ ">\n".toList ++ (pem.toList ++
          (if pem.toList.getLast? = some '\n' then [] else ['\n'])) ++ "</".toList ++ tag ++
          ">\n".toList ++ rest := by simp only [List.append_assoc]
      _ = _ := by rw [chomp_append]; simp
  have hsplit : Str.split '\n' (chomp pem.toList ++ '\n' ::
        (("</".toList ++ tag ++ ['>']) ++ '\n' :: rest)) =
      rawLines pem.toList ++ ("</".toList ++ tag ++ ['>']) :: Str.split '\n' rest := by
    rw [hraw, Str.split, List.splitOn_append_cons_self,
      List.splitOn_append_cons_self_of_not_mem hclosing]
    rfl
  have hread := readInlineBlock_append (unclosed_iff.mp hpem) h.closes (Str.split '\n' rest)
  rw [htext, Str.split, List.splitOn_append_cons_self_of_not_mem hopening, ← Str.split, hsplit,
    items_cons, h.opens]
  simp only [hread]
  rw [← List.drop_drop, List.drop_left]
  rfl

end Blocks

/-! ## The items of an export -/

/-- The settings that are written on one line have no line break. -/
structure OneLine (p : Profile) : Prop where
  hosts : ∀ remote ∈ p.remotes, '\n' ∉ remote.host.toList
  cipher : '\n' ∉ p.options.cipherOverride.toList
  digest : '\n' ∉ p.options.authDigestOverride.toList
  verifyName : '\n' ∉ p.certificates.verifyX509Name.toList

/-- What the exporter writes behind `remote`. -/
def remoteText (remote : RemoteEntry) : List Char :=
  remote.host.toList ++ ' ' :: Nat.toDigits 10 remote.port.toNat ++ ' ' :: remote.transport.toText

def blockItem (tag : List Char) (pem : String) : List Item :=
  if pem.isEmpty then [] else [.block tag (blockBody (rawLines pem.toList))]

def exportItems (p : Profile) : List Item :=
  [Item.directive "client" [], Item.directive "dev" ["tun"]] ++
  p.remotes.map (fun remote => Item.directive "remote" (argsOf (remoteText remote))) ++
  (if p.options.shuffleRemotes then [Item.directive "remote-random" []] else []) ++
  (if p.authMethod.requiresPassword then [Item.directive "auth-user-pass" []] else []) ++
  (if p.options.redirectGateway then [Item.directive "redirect-gateway" ["def1"]] else []) ++
  (if p.options.cipherOverride.isEmpty then []
    else [Item.directive "cipher" (argsOf (Str.trimRight p.options.cipherOverride.toList))]) ++
  (if p.options.authDigestOverride.isEmpty then []
    else [Item.directive "auth" (argsOf (Str.trimRight p.options.authDigestOverride.toList))]) ++
  (if p.certificates.verifyX509Name.isEmpty then []
    else [Item.directive "verify-x509-name"
      (argsOf (p.certificates.verifyX509Name.toList ++ " name".toList))]) ++
  (p.options.mtu.elim [] fun mtu =>
    [Item.directive "tun-mtu" [String.ofList (Nat.toDigits 10 mtu.toNat)]]) ++
  blockItem "ca".toList p.certificates.caPem ++
  blockItem "cert".toList p.certificates.certificatePem

theorem plain_toDigits (n : Nat) : Plain (Nat.toDigits 10 n) := by
  have hdigit : ∀ d < 10, isPlain d.digitChar = true := by decide
  intro c hc
  obtain ⟨d, hd, rfl⟩ := Str.digitChar_of_mem_toDigits (by decide) hc
  exact hdigit d hd

theorem newline_notMem_of_plain {text : List Char} (h : Plain text) : '\n' ∉ text :=
  fun hmem => absurd (h '\n' hmem) (by decide)

theorem plain_toText (transport : Transport) : Plain transport.toText := by
  cases transport
  · exact fun c hc => List.all_eq_true.mp (show "udp".toList.all isPlain = true by decide) c hc
  · exact fun c hc => List.all_eq_true.mp (show "tcp".toList.all isPlain = true by decide) c hc

theorem trimRight_remoteText (remote : RemoteEntry) :
    Str.trimRight (remoteText remote) = remoteText remote := by
  have htrim : Str.trimRight remote.transport.toText = remote.transport.toText := by
    cases remote.transport <;> decide
  have hne : Str.trimRight remote.transport.toText ≠ [] := by
    cases remote.transport <;> decide
  have hend := Str.trimRight_append_of_ne hne
    (remote.host.toList ++ ' ' :: Nat.toDigits 10 remote.port.toNat ++ [' '])
  rw [htrim, List.append_assoc] at hend
  exact hend

theorem reads_remote {remote : RemoteEntry} (h : '\n' ∉ remote.host.toList) :
    Reads (remoteLine remote) [.directive "remote" (argsOf (remoteText remote))] := by
  have hline : '\n' ∉ remoteText remote := by
    rw [remoteText, List.mem_append, List.mem_append, List.mem_cons, List.mem_cons]
    rintro ((hmem | hmem | hmem) | hmem | hmem)
    · exact h hmem
    · cases hmem
    · exact newline_notMem_of_plain (plain_toDigits _) hmem
    · cases hmem
    · exact newline_notMem_of_plain (plain_toText _) hmem
  have hreads := reads_directive (show isKeyword "remote".toList = true by decide) hline
  rw [trimRight_remoteText] at hreads
  have hkeyword : "remote ".toList = "remote".toList ++ [' '] := by decide
  unfold remoteLine
  rw [hkeyword]
  generalize "remote".toList = keyword at hreads
  simpa only [remoteText, List.append_assoc] using hreads

theorem reads_setting {word : String} (hword : isKeyword word.toList = true) {value : String}
    (h : '\n' ∉ value.toList) :
    Reads (if value.isEmpty then [] else word.toList ++ [' '] ++ value.toList ++ ['\n'])
      (if value.isEmpty then []
        else [.directive word (argsOf (Str.trimRight value.toList))]) :=
  Reads.ite fun _ => reads_directive hword h

theorem reads_verify {name : String} (h : '\n' ∉ name.toList) :
    Reads (if name.isEmpty then [] else "verify-x509-name ".toList ++ name.toList ++ " name\n".toList)
      (if name.isEmpty then []
        else [.directive "verify-x509-name" (argsOf (name.toList ++ " name".toList))]) := by
  refine Reads.ite fun _ => ?_
  have hline : '\n' ∉ name.toList ++ " name".toList := by
    rw [List.mem_append]
    rintro (hmem | hmem)
    · exact h hmem
    · revert hmem
      decide
  have htrim : Str.trimRight (name.toList ++ " name".toList) = name.toList ++ " name".toList :=
    Str.trimRight_append_of_ne (by decide) _
  have hreads := reads_directive (show isKeyword "verify-x509-name".toList = true by decide) hline
  rw [htrim] at hreads
  have hfront : "verify-x509-name ".toList = "verify-x509-name".toList ++ [' '] := by decide
  have hback : " name\n".toList = " name".toList ++ ['\n'] := by decide
  rw [hfront, hback]
  generalize "verify-x509-name".toList = keyword at hreads
  simpa only [List.append_assoc] using hreads

theorem reads_mtu (mtu : Option UInt32) :
    Reads (mtu.elim [] fun mtu => "tun-mtu ".toList ++ Nat.toDigits 10 mtu.toNat ++ ['\n'])
      (mtu.elim [] fun mtu =>
        [.directive "tun-mtu" [String.ofList (Nat.toDigits 10 mtu.toNat)]]) := by
  cases mtu with
  | none => exact Reads.nil
  | some mtu =>
    have hdigits := plain_toDigits mtu.toNat
    have hreads := reads_directive (show isKeyword "tun-mtu".toList = true by decide)
      (newline_notMem_of_plain hdigits)
    rw [Str.trimRight_of_forall (Str.not_isSpace_toDigits _), argsOf,
      tokens_plain hdigits Nat.toDigits_ne_nil] at hreads
    have hfront : "tun-mtu ".toList = "tun-mtu".toList ++ [' '] := by decide
    rw [Option.elim_some, Option.elim_some, hfront]
    exact hreads

theorem reads_comment : Reads "# Exported by NovaVPN\n".toList [] := by
  have htext : "# Exported by NovaVPN\n".toList = "# Exported by NovaVPN".toList ++ ['\n'] := by
    decide
  rw [htext]
  refine Reads.line (by decide) fun rest => ?_
  have htrim : Str.trim "# Exported by NovaVPN".toList = '#' :: " Exported by NovaVPN".toList := by
    decide
  obtain ⟨hdirective, hopen⟩ :=
    @directiveOf_comment '#' " Exported by NovaVPN".toList (Or.inl rfl)
  rw [items_cons, htrim, hopen, hdirective]
  rfl

/-- Without line breaks in the one-line settings and closing tags in the
certificates, an export is read line by line. -/
theorem reads_exportText {p : Profile} (h : OneLine p) (hca : Unclosed "ca".toList p.certificates.caPem)
    (hcert : Unclosed "cert".toList p.certificates.certificatePem) :
    Reads (exportText p) (exportItems p) := by
  have hclient : "client\n".toList = "client".toList ++ ['\n'] := by decide
  have hdev : "dev tun\n".toList = "dev".toList ++ [' '] ++ "tun".toList ++ ['\n'] := by decide
  have hrandom : "remote-random\n".toList = "remote-random".toList ++ ['\n'] := by decide
  have hauth : "auth-user-pass\n".toList = "auth-user-pass".toList ++ ['\n'] := by decide
  have hredirect : "redirect-gateway def1\n".toList =
      "redirect-gateway".toList ++ [' '] ++ "def1".toList ++ ['\n'] := by decide
  have hcipher : "cipher ".toList = "cipher".toList ++ [' '] := by decide
  have hdigest : "auth ".toList = "auth".toList ++ [' '] := by decide
  have hpassword : (p.authMethod = .userPassword ∨ p.authMethod = .certificateAndPassword ∨
      p.authMethod = .userPasswordTotp) ↔ p.authMethod.requiresPassword = true := by
    cases p.authMethod <;> decide
  have hstart : Reads ("# Exported by NovaVPN\n".toList ++ "client\n".toList ++ "dev tun\n".toList)
      [.directive "client" [], .directive "dev" ["tun"]] := by
    rw [hclient, hdev]
    exact (reads_comment.append (reads_keyword (by decide))).append
      (reads_directive (by decide) (by decide))
  unfold exportText exportItems
  simp only [hpassword]
  refine (((((((((hstart.append ?_).append ?_).append ?_).append ?_).append ?_).append ?_).append
    ?_).append (reads_mtu _)).append (reads_block isTag_ca hca)).append (reads_block isTag_cert hcert)
  · exact Reads.flatMap fun remote hr => reads_remote (h.hosts remote hr)
  · exact Reads.ite_else fun _ => hrandom ▸ reads_keyword (by decide)
  · exact Reads.ite_else fun _ => hauth ▸ reads_keyword (by decide)
  · exact Reads.ite_else fun _ => hredirect ▸ reads_directive (by decide) (by decide)
  · rw [hcipher]
    exact reads_setting (by decide) h.cipher
  · rw [hdigest]
    exact reads_setting (by decide) h.digest
  · exact reads_verify h.verifyName

theorem items_exportText {p : Profile} (h : OneLine p) (hca : Unclosed "ca".toList p.certificates.caPem)
    (hcert : Unclosed "cert".toList p.certificates.certificatePem) :
    items (Str.split '\n' (exportText p)) = exportItems p := by
  have hend : items (Str.split '\n' []) = [] := by
    rw [Str.split, List.splitOn_nil]
    rfl
  calc items (Str.split '\n' (exportText p)) = items (Str.split '\n' (exportText p ++ [])) := by
        rw [List.append_nil]
    _ = exportItems p ++ items (Str.split '\n' []) := reads_exportText h hca hcert []
    _ = exportItems p := by rw [hend, List.append_nil]

end NovaVpn.Profiles
