import Salvage.Proofs.Text.Utf8
import Salvage.Proofs.Url.Credentials
import Salvage.Settings.Database

/-!
# Credentials in the connection URL

The user and the password get into the connection URL as text, and the client of the database reads them
out of that text again. `connectionUrl_credentials_iff` says which of them survive: all but those in which
a percent sign and two hexadecimal digits follow each other, since the percent sign is not escaped.
`redacted_text_agree` compares two runs that differ in the password alone: they fail with one diagnosis or
not at all, and what is shown of their URLs is the same text.
-/

namespace Salvage.DatabaseOptions

open Url (AtHost escapeUser)

variable {options options₁ options₂ : DatabaseOptions} {env env₁ env₂ : Environment} {p : Parts}
variable {base u : Url} {a : Url.Authority} {path : Url.Path}
variable {user password password₁ password₂ : String}

/-! ## The URL in its parts -/

/-- The URL of a host is one at a host. -/
theorem base_atHost (h : p.base = .ok base) : ∃ a path, AtHost base a path := by
  unfold Parts.base at h
  obtain ⟨url, hread, h⟩ := bind_eq_ok.1 h
  have hurl : Url.read ("postgres://" ++ (p.host ++ (":" ++ toString p.port))) = .ok url := by
    have htext : s!"postgres://{p.host}:{p.port}" =
        "postgres://" ++ (p.host ++ (":" ++ toString p.port)) := by
      rw [← String.append_assoc, ← String.append_assoc]
      rfl
    rw [htext] at hread
    exact mapError_eq_ok.1 hread
  by_cases hhost : url.authority?.isNone = true
  · rw [if_pos hhost] at h
    cases h
  · rw [if_neg hhost] at h
    obtain rfl : url = base := Except.ok.inj h
    exact Url.read_atHost hurl (by simpa [Option.isSome_iff_ne_none] using hhost)

/-- The other parts leave it at its host. -/
theorem onto_atHost (h : AtHost base a path) (p : Parts) :
    ∃ path, AtHost (p.onto base) { a with
      user := escapeUser p.user.toList
      password := escapeUser (p.password.getD "").toList } path := by
  have huser := h.mapAuthority (f := fun a => { a with user := escapeUser p.user.toList }) rfl rfl
  have hpassword := huser.mapAuthority
    (f := fun a => { a with password := escapeUser (p.password.getD "").toList }) rfl rfl
  obtain ⟨path, hpath⟩ := hpassword.withPath p.name.toList
  exact ⟨path, hpath.addField _ _⟩

/-- The parts are found apart from each other. -/
theorem parts_eq_map (options : DatabaseOptions) (env : Environment) :
    options.parts env = (options.findPort env).map fun port =>
      { host := ((env "POSTGRES_HOST").or options.host).getD "localhost"
        port := port
        user := ((env "POSTGRES_USER").or options.user).getD "postgres"
        password := (env "POSTGRES_PASSWORD").or options.password
        name := ((env "PENNSIEVE_DB").or options.name).getD "postgres"
        sslMode := ((env "POSTGRES_SSL_MODE").or options.sslMode).getD "disable" } := by
  unfold parts
  cases options.findPort env <;> rfl

/-- The connection URL, when none is given. -/
theorem connectionUrl_of_parts (hurl : (env "DATABASE_URL").or options.url = none) :
    options.connectionUrl env =
      options.parts env >>= fun p => p.base >>= fun base => .ok (p.onto base) := by
  rw [connectionUrl, hurl]
  rfl

/-- A connection URL that is put together has the user and the password of the environment, or else of
the settings file, each as it is written. -/
theorem connectionUrl_atHost (hurl : (env "DATABASE_URL").or options.url = none)
    (hpassword : (env "POSTGRES_PASSWORD").or options.password = some password)
    (h : options.connectionUrl env = .ok u) :
    ∃ a path, AtHost u a path ∧
      a.user = escapeUser (((env "POSTGRES_USER").or options.user).getD "postgres").toList ∧
      a.password = escapeUser password.toList := by
  rw [connectionUrl_of_parts hurl] at h
  obtain ⟨p, hparts, h⟩ := bind_eq_ok.1 h
  obtain ⟨base, hbase, h⟩ := bind_eq_ok.1 h
  obtain rfl := Except.ok.inj h
  rw [parts_eq_map, map_eq_ok] at hparts
  obtain ⟨port, -, rfl⟩ := hparts
  obtain ⟨a, path, hat⟩ := base_atHost hbase
  obtain ⟨path, hat⟩ := onto_atHost hat _
  refine ⟨_, path, hat, rfl, ?_⟩
  dsimp only
  rw [hpassword, Option.getD_some]

/-! ## Which credentials survive -/

/-- A written user or password is read back exactly when it has no escape. -/
theorem readUtf8_escapeUser_iff {cs : List Char} :
    Text.readUtf8 (Text.percentDecode (escapeUser cs)) = .ok cs ↔ Text.hasEscape cs = false := by
  rw [Text.readUtf8_eq_ok_iff, Url.percentDecode_escapeUser_eq_iff]

/-- When the text of a connection URL that is put together is cut at the first colon of its userinfo, the
user is read back from it exactly when there is no escape in it, and so is the password. -/
theorem connectionUrl_credentials_iff (hurl : (env "DATABASE_URL").or options.url = none)
    (huser : ((env "POSTGRES_USER").or options.user).getD "postgres" = user)
    (hpassword : (env "POSTGRES_PASSWORD").or options.password = some password)
    (hne : password ≠ "") (h : options.connectionUrl env = .ok u) :
    ∃ cut, Url.cut? u.text.toList = some cut ∧
      (Text.readUtf8 (Text.percentDecode cut.user) = .ok user.toList ↔
        Text.hasEscape user.toList = false) ∧
      (Text.readUtf8 (Text.percentDecode cut.password) = .ok password.toList ↔
        Text.hasEscape password.toList = false) := by
  obtain ⟨a, path, hat, hauser, hapassword⟩ := connectionUrl_atHost hurl hpassword h
  rw [huser] at hauser
  refine ⟨u.cutAt a path, hat.cut?_text ?_ ?_ ?_, ?_, ?_⟩
  · rw [hapassword]
    exact Url.escapeUser_ne_nil hne
  · rw [hauser]
    exact fun _ => Url.mem_escapeUser
  · rw [hapassword]
    exact fun _ hc => (Url.mem_escapeUser hc).2
  · rw [Url.cutAt, hauser]
    exact readUtf8_escapeUser_iff
  · rw [Url.cutAt, hapassword]
    exact readUtf8_escapeUser_iff

/-- Separators and lone percent signs in a user and in a password survive. -/
theorem connectionUrl_credentials_sample :
    let options : DatabaseOptions := { user := some "é:%", password := some "%4@p/s?#:%zz ü" }
    let env : Environment := fun _ => none
    ∃ u cut, options.connectionUrl env = .ok u ∧ Url.cut? u.text.toList = some cut ∧
      Text.readUtf8 (Text.percentDecode cut.user) = .ok "é:%".toList ∧
      Text.readUtf8 (Text.percentDecode cut.password) = .ok "%4@p/s?#:%zz ü".toList := by
  intro options env
  have h : options.connectionUrl env = .ok
      ⟨"postgres".toList, .hosted ⟨"%C3%A9%3A%".toList, "%4%40p%2Fs%3F%23%3A%zz%20%C3%BC".toList,
        some (.name "localhost".toList), some 5432⟩ ["postgres".toList],
        some "sslmode=disable".toList, none⟩ := by
    decide +kernel
  obtain ⟨cut, hcut, huser, hpassword⟩ := connectionUrl_credentials_iff rfl rfl rfl (by decide) h
  exact ⟨_, cut, h, hcut, huser.2 (by decide), hpassword.2 (by decide)⟩

/-- An environment in which the password is a percent sign and two digits. -/
def escapedPassword : Environment := fun key => if key = "POSTGRES_PASSWORD" then some "%41" else none

/-- A password with an escape in it gets into the URL as it is, and another one is read back. -/
theorem connectionUrl_credentials_differ :
    (escapedPassword "POSTGRES_PASSWORD").or none = some "%41" ∧
      ∃ u cut, connectionUrl {} escapedPassword = .ok u ∧ Url.cut? u.text.toList = some cut ∧
        Text.readUtf8 (Text.percentDecode cut.user) = .ok "postgres".toList ∧
        Text.readUtf8 (Text.percentDecode cut.password) = .ok "A".toList := by
  refine ⟨by decide, ⟨"postgres".toList, .hosted ⟨"postgres".toList, "%41".toList,
    some (.name "localhost".toList), some 5432⟩ ["postgres".toList],
    some "sslmode=disable".toList, none⟩,
    ⟨"postgres".toList, "postgres".toList, "%41".toList,
      "localhost:5432/postgres?sslmode=disable".toList⟩, ?_, ?_, ?_, ?_⟩
  all_goals decide +kernel

/-! ## What is shown -/

/-- Two settings files and environments that agree on everything but the password. -/
structure AgreeButPassword (options₁ options₂ : DatabaseOptions) (env₁ env₂ : Environment) : Prop where
  options : { options₁ with password := none } = { options₂ with password := none }
  environment : ∀ key, key ≠ "POSTGRES_PASSWORD" → env₁ key = env₂ key

/-- What is shown of the URL does not depend on the password that is put on it. -/
theorem redacted_onto (base : Url) (hne : p.password.getD "" ≠ "") :
    (p.onto base).redacted =
      (((base.withUser p.user.toList).mapAuthority fun a =>
        { a with password := Url.mask }).withPath p.name.toList).addField
          "sslmode".toList p.sslMode.toList := by
  rw [Parts.onto, Url.redacted_addField, Url.redacted_withPath, Url.redacted_withPassword hne]

/-- What is shown of the URL differs from it in the password only. -/
theorem onto_masksPassword (h : AtHost base a path) (hne : p.password.getD "" ≠ "") :
    (p.onto base).MasksPassword := by
  obtain ⟨path, hat⟩ := onto_atHost h p
  have hwritten := Url.escapeUser_ne_nil hne
  have hcut := hat.cut?_text hwritten (fun _ => Url.mem_escapeUser) fun _ hc =>
    (Url.mem_escapeUser hc).2
  exact ⟨_, hcut, hat.text_eq hwritten, hat.redacted_text_eq hwritten⟩

namespace AgreeButPassword

/-- What is found for anything but the password is the same. -/
theorem or_eq (h : AgreeButPassword options₁ options₂ env₁ env₂) (key : String)
    (option : DatabaseOptions → Option String) (hkey : key ≠ "POSTGRES_PASSWORD")
    (hoption : ∀ o : DatabaseOptions, option { o with password := none } = option o) :
    (env₂ key).or (option options₂) = (env₁ key).or (option options₁) := by
  rw [h.environment key hkey, ← hoption options₁, h.options, hoption]

/-- The parts of the two agree on all but the password. -/
theorem parts_eq (h : AgreeButPassword options₁ options₂ env₁ env₂) :
    options₂.parts env₂ = (options₁.parts env₁).map fun p =>
      { p with password := (env₂ "POSTGRES_PASSWORD").or options₂.password } := by
  have hport : options₂.findPort env₂ = options₁.findPort env₁ := by
    have hoption : options₁.port = options₂.port := (congrArg DatabaseOptions.port h.options :)
    rw [findPort, findPort, h.environment "POSTGRES_PORT" (by decide), hoption]
  have hhost := h.or_eq "POSTGRES_HOST" (·.host) (by decide) fun _ => rfl
  have huser := h.or_eq "POSTGRES_USER" (·.user) (by decide) fun _ => rfl
  have hname := h.or_eq "PENNSIEVE_DB" (·.name) (by decide) fun _ => rfl
  have hsslMode := h.or_eq "POSTGRES_SSL_MODE" (·.sslMode) (by decide) fun _ => rfl
  rw [parts_eq_map, parts_eq_map, hport, hhost, huser, hname, hsslMode]
  cases options₁.findPort env₁ <;> rfl

end AgreeButPassword

/-- Of two settings that agree on all but the password, and have one, the connection URLs fail with the
same diagnosis or are shown as the same text, in which nothing but the password is masked. -/
theorem redacted_text_agree (h : AgreeButPassword options₁ options₂ env₁ env₂)
    (hurl₁ : (env₁ "DATABASE_URL").or options₁.url = none)
    (hpassword₁ : (env₁ "POSTGRES_PASSWORD").or options₁.password = some password₁)
    (hpassword₂ : (env₂ "POSTGRES_PASSWORD").or options₂.password = some password₂)
    (hne₁ : password₁ ≠ "") (hne₂ : password₂ ≠ "") :
    (∃ e, options₁.connectionUrl env₁ = .error e ∧ options₂.connectionUrl env₂ = .error e) ∨
      ∃ u₁ u₂, options₁.connectionUrl env₁ = .ok u₁ ∧ options₂.connectionUrl env₂ = .ok u₂ ∧
        u₁.redacted.text = u₂.redacted.text ∧ u₁.MasksPassword ∧ u₂.MasksPassword := by
  have hurl₂ : (env₂ "DATABASE_URL").or options₂.url = none := by
    rw [h.or_eq "DATABASE_URL" (·.url) (by decide) fun _ => rfl, hurl₁]
  rw [connectionUrl_of_parts hurl₁, connectionUrl_of_parts hurl₂, h.parts_eq, hpassword₂]
  cases hparts : options₁.parts env₁ with
  | error e => exact .inl ⟨e, rfl, rfl⟩
  | ok p =>
    have hp : p.password.getD "" ≠ "" := by
      rw [parts_eq_map, map_eq_ok] at hparts
      obtain ⟨port, -, rfl⟩ := hparts
      rwa [hpassword₁]
    -- the URL of the host is made without the password
    let p₂ : Parts := { p with password := some password₂ }
    have hparts₂ : Except.map (fun p : Parts => { p with password := some password₂ })
        (.ok p : Except Diagnosis Parts) = .ok p₂ := rfl
    have hsame : p₂.base = p.base := rfl
    rw [hparts₂]
    simp only [bind, Except.bind, hsame]
    cases hbase : p.base with
    | error e => exact .inl ⟨e, rfl, rfl⟩
    | ok base =>
      obtain ⟨a, path, hat⟩ := base_atHost hbase
      refine .inr ⟨p.onto base, p₂.onto base, rfl, rfl, ?_, ?_, ?_⟩
      · rw [redacted_onto base hp, redacted_onto base (p := p₂) hne₂]
      · exact onto_masksPassword hat hp
      · exact onto_masksPassword hat hne₂

/-- A password from the settings file and one from the environment that is full of separators. -/
theorem redacted_text_agree_sample :
    let options₁ : DatabaseOptions := { user := some "u", password := some "p" }
    let options₂ : DatabaseOptions := { user := some "u" }
    let env₁ : Environment := fun _ => none
    let env₂ : Environment := fun key =>
      if key = "POSTGRES_PASSWORD" then some "x@y:/?#%41" else none
    ∃ u₁ u₂, options₁.connectionUrl env₁ = .ok u₁ ∧ options₂.connectionUrl env₂ = .ok u₂ ∧
      u₁.redacted.text = u₂.redacted.text ∧ u₁.MasksPassword ∧ u₂.MasksPassword := by
  intro options₁ options₂ env₁ env₂
  have h : AgreeButPassword options₁ options₂ env₁ env₂ :=
    ⟨rfl, fun key hkey => (if_neg hkey).symm⟩
  have hpassword₂ : (env₂ "POSTGRES_PASSWORD").or options₂.password = some "x@y:/?#%41" := by
    decide
  have hok : options₁.connectionUrl env₁ = .ok
      ⟨"postgres".toList, .hosted ⟨"u".toList, "p".toList, some (.name "localhost".toList),
        some 5432⟩ ["postgres".toList], some "sslmode=disable".toList, none⟩ := by
    decide +kernel
  refine (redacted_text_agree h rfl rfl hpassword₂ (by decide) (by decide)).resolve_left ?_
  rintro ⟨e, herror, -⟩
  rw [hok] at herror
  cases herror

end Salvage.DatabaseOptions
