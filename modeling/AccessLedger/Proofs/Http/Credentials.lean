import AccessLedger.Http.Credentials
import Mathlib.Data.List.Basic

/-!
# Which credentials are accepted

Credentials are read from a field exactly if it is the one that they are
written in (`basicCredentials?_eq_some_iff`): the written form of a name
without a colon and a password is the only one that is taken for them.  The
first login with that name decides, so that a request is admitted by at most
one entry of the list of logins (`Admits`), and entries whose name has a colon
or has been taken before do nothing (`authenticate_of_idle`).
-/

namespace AccessLedger.Http

theorem splitColon_eq_some_iff {cs name password : List Char} :
    splitColon cs = some (name, password) ↔ ':' ∉ name ∧ cs = name ++ ':' :: password := by
  induction cs generalizing name with
  | nil => simp [splitColon]
  | cons c r ih =>
    by_cases hc : c = ':'
    · subst hc
      cases name with
      | nil => simp [splitColon, eq_comm]
      | cons d name =>
        simp only [splitColon, if_true, Option.some.injEq, Prod.mk.injEq, List.cons_append,
          List.cons.injEq, List.mem_cons, not_or]
        constructor
        · rintro ⟨hname, -⟩
          cases hname
        · rintro ⟨⟨hd, -⟩, rfl, -⟩
          exact absurd rfl hd
    · simp only [splitColon, if_neg hc, Option.map_eq_some_iff, Prod.exists]
      constructor
      · rintro ⟨before, after, hsplit, heq⟩
        cases heq
        obtain ⟨hcolon, rfl⟩ := ih.mp hsplit
        exact ⟨List.not_mem_cons_of_ne_of_not_mem (Ne.symm hc) hcolon, rfl⟩
      · rintro ⟨hcolon, heq⟩
        cases name with
        | nil => exact absurd (List.cons.inj heq).1 hc
        | cons d name =>
          obtain ⟨rfl, hrest⟩ := List.cons.inj heq
          exact ⟨name, password, ih.mpr ⟨List.not_mem_of_not_mem_cons hcolon, hrest⟩, rfl⟩

/-- The authorization field of a request by somebody with a name and a password. -/
def basicValue (name password : String) : String :=
  "Basic " ++ String.ofList (Text.Base64.encode (Text.bytes (name ++ ":" ++ password)))

@[simp]
theorem toList_basicValue (name password : String) : (basicValue name password).toList =
    "Basic ".toList ++ Text.Base64.encode (Text.bytes (name ++ ":" ++ password)) := by
  rw [basicValue, String.toList_append, @String.toList_ofList (Text.Base64.encode _)]

@[simp]
theorem isHeaderText_basicValue (name password : String) :
    isHeaderText (basicValue name password).toList = true := by
  have hencoded : isHeaderText (Text.Base64.encode (Text.bytes (name ++ ":" ++ password))) =
      true :=
    Text.Base64.all_encode (by decide +kernel) rfl _
  rw [toList_basicValue, isHeaderText, List.all_append]
  exact hencoded

/-- Credentials are taken out of exactly the fields that they are put into. -/
theorem basicCredentials?_eq_some_iff {value name password : String} :
    basicCredentials? value = some (name, password) ↔
      ':' ∉ name.toList ∧ value = basicValue name password := by
  have hcolon (name password : String) :
      (name ++ ":" ++ password).toList = name.toList ++ ':' :: password.toList := by
    simp
  constructor
  · intro h
    unfold basicCredentials? at h
    split at h
    · cases h
    · simp only [Option.bind_eq_bind, Option.bind_eq_some_iff] at h
      obtain ⟨encoded, hscheme, bytes, hbytes, text, htext, ⟨u, p⟩, hsplit, h⟩ := h
      cases h
      obtain ⟨hname, htext'⟩ := splitColon_eq_some_iff.mp hsplit
      refine ⟨by simpa using hname, ?_⟩
      obtain rfl : text = String.ofList u ++ ":" ++ String.ofList p := by
        apply String.toList_injective
        rw [htext', hcolon, String.toList_ofList, String.toList_ofList]
      apply String.toList_injective
      rw [toList_basicValue, ← Text.ofBytes?_eq_some_iff.mp htext,
        ← Text.Base64.decode_eq_some_iff.mp hbytes,
        List.isPrefixOf?_eq_some_iff_append_eq.mp hscheme]
  · rintro ⟨hname, rfl⟩
    have hscheme : "Basic ".toList.isPrefixOf? (basicValue name password).toList =
        some (Text.Base64.encode (Text.bytes (name ++ ":" ++ password))) :=
      List.isPrefixOf?_eq_some_iff_append_eq.mpr (toList_basicValue name password).symm
    have hsplit : splitColon (name ++ ":" ++ password).toList =
        some (name.toList, password.toList) :=
      splitColon_eq_some_iff.mpr ⟨hname, hcolon name password⟩
    simp only [basicCredentials?, isHeaderText_basicValue, Bool.not_true, Bool.false_eq_true,
      if_false, hscheme, Option.bind_eq_bind, Option.bind_some, Text.Base64.decode_encode,
      Text.ofBytes?_bytes, hsplit, String.ofList_toList]
    rfl

theorem HeaderFields.authorization?_eq_some_iff {fields : HeaderFields} {value : String} :
    fields.authorization? = some value ↔
      fields.lookup "authorization" = some (Text.bytes value) := by
  simp only [authorization?, Option.bind_eq_some_iff, Text.ofBytes?_eq_some_iff, exists_eq_right]

section

variable {check : PasswordCheck} {users : List Login}

theorem authenticate_eq_some_iff {value : Option String} {account : AccountId} :
    authenticate check users value = some account ↔ ∃ name password user,
      value = some (basicValue name password) ∧ ':' ∉ name.toList ∧
      users.find? (·.username = name) = some user ∧ check user.passwordHash password = true ∧
      user.account = account := by
  simp only [authenticate, Option.bind_eq_bind, Option.bind_eq_some_iff, Prod.exists,
    Option.ite_none_right_eq_some, Option.some.injEq, basicCredentials?_eq_some_iff]
  constructor
  · rintro ⟨text, hvalue, name, password, ⟨hname, htext⟩, user, hfound, hcheck, haccount⟩
    exact ⟨name, password, user, htext ▸ hvalue, hname, hfound, hcheck, haccount⟩
  · rintro ⟨name, password, user, hvalue, hname, hfound, hcheck, haccount⟩
    exact ⟨_, hvalue, name, password, ⟨hname, rfl⟩, user, hfound, hcheck, haccount⟩

/--
A request with these fields is admitted by the login `user` that comes after
`before` in a list.
-/
structure Admits (check : PasswordCheck) (fields : HeaderFields) (before : List Login)
    (user : Login) (password : String) : Prop where
  field : fields.lookup "authorization" = some (Text.bytes (basicValue user.username password))
  undivided : ':' ∉ user.username.toList
  first : ∀ other ∈ before, other.username ≠ user.username
  fits : check user.passwordHash password = true

/-- The login that admits a request is the one whose account acts. -/
theorem authenticate_iff_admits {fields : HeaderFields} {account : AccountId} :
    authenticate check users fields.authorization? = some account ↔
      ∃ before user after password, users = before ++ user :: after ∧
        Admits check fields before user password ∧ user.account = account := by
  rw [authenticate_eq_some_iff]
  constructor
  · rintro ⟨name, password, user, hvalue, hname, hfound, hcheck, haccount⟩
    obtain ⟨huser, before, after, husers, hbefore⟩ := List.find?_eq_some_iff_append.mp hfound
    obtain rfl := of_decide_eq_true huser
    refine ⟨before, user, after, password, husers, ⟨?_, hname, fun other hother => ?_, hcheck⟩,
      haccount⟩
    · exact HeaderFields.authorization?_eq_some_iff.mp hvalue
    · simpa using hbefore other hother
  · rintro ⟨before, user, after, password, husers, hadmits, haccount⟩
    refine ⟨user.username, password, user,
      HeaderFields.authorization?_eq_some_iff.mpr hadmits.field, hadmits.undivided, ?_,
      hadmits.fits, haccount⟩
    refine List.find?_eq_some_iff_append.mpr ⟨decide_eq_true rfl, before, after, husers, ?_⟩
    intro other hother
    simpa using hadmits.first other hother

/-- The password decides for the first login with the name. -/
theorem authenticate_basicValue {name password : String} (hname : ':' ∉ name.toList) :
    authenticate check users (some (basicValue name password)) =
      (users.find? (·.username = name)).bind fun user =>
        if check user.passwordHash password then some user.account else none := by
  have hcredentials : basicCredentials? (basicValue name password) = some (name, password) :=
    basicCredentials?_eq_some_iff.mpr ⟨hname, rfl⟩
  simp only [authenticate, Option.bind_eq_bind, Option.bind_some, hcredentials]

/-- A login whose name has a colon, or has been taken before, may as well be left out. -/
theorem authenticate_of_idle {before after : List Login} {user : Login}
    (hidle : ':' ∈ user.username.toList ∨ ∃ other ∈ before, other.username = user.username)
    (value : Option String) :
    authenticate check (before ++ user :: after) value =
      authenticate check (before ++ after) value := by
  have hfind (name : String) (hname : ':' ∉ name.toList) :
      (before ++ user :: after).find? (·.username = name) =
        (before ++ after).find? (·.username = name) := by
    rw [List.find?_append, List.find?_append, List.find?_cons]
    by_cases huser : user.username = name
    · subst huser
      obtain ⟨other, hother, hsame⟩ := hidle.resolve_left hname
      cases hfound : before.find? (·.username = user.username) with
      | some earlier => rfl
      | none =>
        have hnone := List.find?_eq_none.mp hfound other hother
        exact absurd (decide_eq_true hsame) hnone
    · simp only [huser, decide_false]
  cases value with
  | none => rfl
  | some text =>
    refine Option.ext fun account => ?_
    rw [authenticate_eq_some_iff, authenticate_eq_some_iff]
    constructor
    · rintro ⟨name, password, user, hvalue, hname, hfound, h⟩
      exact ⟨name, password, user, hvalue, hname, hfind name hname ▸ hfound, h⟩
    · rintro ⟨name, password, user, hvalue, hname, hfound, h⟩
      exact ⟨name, password, user, hvalue, hname, (hfind name hname).symm ▸ hfound, h⟩

end

/-- A check accepts exactly the password of which a hash was made, whatever the salt. -/
def TellsPasswords (check : PasswordCheck) (hash : String → String → String) : Prop :=
  ∀ salt own given, check (hash salt own) given = true ↔ given = own

/--
A request acts for an account exactly if the login of that account admits it.
If its first authorization field is written for a name without a colon, it is
let in exactly if the password fits the first login with that name; where the
check tells passwords, this is the password of which the hash was made.  A
login whose name has a colon or has been taken before admits nobody, and what
is answered does not depend on it.
-/
theorem right_credentials_are_accepted (check : PasswordCheck) (users : List Login)
    (fields : HeaderFields) :
    (∀ account, authenticate check users fields.authorization? = some account ↔
      ∃ before user after password, users = before ++ user :: after ∧
        Admits check fields before user password ∧ user.account = account) ∧
    (∀ name password, ':' ∉ name.toList →
      fields.lookup "authorization" = some (Text.bytes (basicValue name password)) →
      ((∃ account, authenticate check users fields.authorization? = some account) ↔
        ∃ user, users.find? (·.username = name) = some user ∧
          check user.passwordHash password = true) ∧
      ∀ hash, TellsPasswords check hash →
        ∀ user salt own, users.find? (·.username = name) = some user →
          user.passwordHash = hash salt own →
          (authenticate check users fields.authorization? = some user.account ↔
            password = own)) ∧
    ∀ before user after, users = before ++ user :: after →
      (':' ∈ user.username.toList ∨ ∃ other ∈ before, other.username = user.username) →
      (∀ password, ¬Admits check fields before user password) ∧
        authenticate check users fields.authorization? =
          authenticate check (before ++ after) fields.authorization? := by
  refine ⟨fun account => authenticate_iff_admits, ?_, ?_⟩
  · intro name password hname hfield
    rw [HeaderFields.authorization?_eq_some_iff.mpr hfield, authenticate_basicValue hname]
    constructor
    · simp only [Option.bind_eq_some_iff, Option.ite_none_right_eq_some]
      constructor
      · rintro ⟨account, user, hfound, hcheck, -⟩
        exact ⟨user, hfound, hcheck⟩
      · rintro ⟨user, hfound, hcheck⟩
        exact ⟨user.account, user, hfound, hcheck, rfl⟩
    · intro hash htells user salt own hfound hhash
      rw [hfound, Option.bind_some, Option.ite_none_right_eq_some, hhash, htells]
      exact and_iff_left rfl
  · rintro before user after rfl hidle
    refine ⟨?_, authenticate_of_idle hidle _⟩
    intro password hadmits
    cases hidle with
    | inl hcolon => exact hadmits.undivided hcolon
    | inr htaken =>
      obtain ⟨other, hother, hsame⟩ := htaken
      exact hadmits.first other hother hsame

/-- The name `a:b` would be divided, and of the two logins called `a` the first one counts. -/
def twoNamesakes : List Login :=
  [⟨"a:b", ⟨1⟩, "=c"⟩, ⟨"a", ⟨2⟩, "=b:c"⟩, ⟨"a", ⟨3⟩, "=c"⟩]

/-- A header with two authorization fields, of which the first is for `a` and `b:c`. -/
def twoCredentials : HeaderFields :=
  [("host", Text.bytes "h"), ("authorization", Text.bytes "Basic YTpiOmM="),
    ("authorization", Text.bytes "Basic YTpj")]

/-- A check of hashes that only put a sign before the password. -/
def plainCheck : PasswordCheck := fun hash given => hash = "=" ++ given

theorem tellsPasswords_plainCheck : TellsPasswords plainCheck fun _ own => "=" ++ own := by
  intro salt own given
  rw [plainCheck, decide_eq_true_eq]
  constructor
  · intro h
    exact ((String.append_right_inj _).mp h).symm
  · rintro rfl
    rfl

/-- Account 2 acts, and would without the login before its own. -/
theorem first_namesake_is_accepted :
    TellsPasswords plainCheck (fun _ own => "=" ++ own) ∧
    authenticate plainCheck twoNamesakes twoCredentials.authorization? = some ⟨2⟩ ∧
    authenticate plainCheck twoNamesakes.tail twoCredentials.authorization? = some ⟨2⟩ := by
  obtain ⟨-, hpassword, hidle⟩ :=
    right_credentials_are_accepted plainCheck twoNamesakes twoCredentials
  have hvalue : basicValue "a" "b:c" = "Basic YTpiOmM=" := by decide +kernel
  have hfield : twoCredentials.lookup "authorization" =
      some (Text.bytes (basicValue "a" "b:c")) := by
    rw [hvalue]
    rfl
  have hfound : twoNamesakes.find? (·.username = "a") = some ⟨"a", ⟨2⟩, "=b:c"⟩ := by
    decide
  obtain ⟨-, hown⟩ := hpassword "a" "b:c" (by decide) hfield
  have hacts : authenticate plainCheck twoNamesakes twoCredentials.authorization? = some ⟨2⟩ :=
    (hown _ tellsPasswords_plainCheck _ "" "b:c" hfound rfl).mpr rfl
  refine ⟨tellsPasswords_plainCheck, hacts, ?_⟩
  rw [← hacts]
  exact (hidle [] _ _ rfl (.inl (by decide))).2.symm

end AccessLedger.Http
