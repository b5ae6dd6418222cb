import DanbyteOutpost.Checks.Refusal

/-!
# The validation of parameters

`validate_params` of each checker, which is asked before the parameters of a template are kept, and
what the parameters it accepts can be relied on for.

## What acceptance is good for

The validators return nothing, so what a later reader may rely on has to be read off what they do
not raise on. There is a lemma for each thing they look at: the port (`port_of_validatePort`), a
text that is a pattern (`searchIn_of_checkPattern`), the HTTP parameters as a whole
(`HttpAccepted`). What they do not look at is missing here as it is missing there.
-/

namespace Checks

variable (re : Regex)

/-! ### The validation -/

/-- `value in (…)`, of texts. -/
def oneOf (texts : List String) : Json → Bool
  | .str text => texts.contains text
  | _ => false

/-- `require_port(params)`, where there is a port. -/
def validatePort (params : Json) : Except Exc Unit := do
  match ← getField params "port" with
  | .null => return ()
  | _ =>
    let _ ← requirePort params
    return ()

/-- `IcmpChecker.validate_params`; a truth value is an integer. -/
def icmpValidate (params : Json) : Except Exc Unit := do
  let refused := Except.error (.config "'count' must be an integer between 1 and 10")
  match ← getOr params "count" (.int 2) with
  | .bool b => if b then return () else refused
  | .int n => if 1 ≤ n ∧ n ≤ 10 then return () else refused
  | _ => refused

/-- The status codes expected are a list, if anything. -/
def validateStatuses : Json → Except Exc Unit
  | .null | .arr _ => .ok ()
  | _ => .error (.config "'expected_status' must be a list of status codes")

/-- `HttpChecker.validate_params`. -/
def httpValidate (params : Json) : Except Exc Unit := do
  if !oneOf ["http", "https"] (← getOr params "scheme" (.str "http")) then
    .error (.config "'scheme' must be 'http' or 'https'")
  validatePort params
  let bodyRe ← getField params "expected_body_regex"
  if bodyRe.truthy then checkPattern re "'expected_body_regex' invalid: " bodyRe
  validateStatuses (← getField params "expected_status")

/-- `UdpChecker.validate_params`, which is that of `TcpChecker`. -/
def udpValidate (params : Json) : Except Exc Unit := tcpValidate re params

/-- `SnmpChecker.validate_params`. -/
def snmpValidate (params : Json) : Except Exc Unit := do
  if !oneOf ["v1", "v2c", "v3"] (← getOr params "version" (.str "v2c")) then
    .error (.config "'version' must be v1, v2c or v3")
  validatePort params
  match ← getField params "comparator" with
  | .null => return ()
  | comparator =>
    if oneOf ["eq", "ne", "gt", "lt", "ge", "le"] comparator then return ()
    else .error (.config "'comparator' must be one of eq/ne/gt/lt/ge/le")

/-- `TlsCertChecker.validate_params`. -/
def tlsValidate (params : Json) : Except Exc Unit := do
  validatePort params
  match ← getField params "server_name" with
  | .null | .str _ => return ()
  | _ => .error (.config "'server_name' must be a string")

/-- `CHECKER_REGISTRY[kind].validate_params(params)`. -/
def validate (kind : Kind) (params : Json) : Except Exc Unit :=
  match kind with
  | .icmp => icmpValidate params
  | .tcp => tcpValidate re params
  | .http => httpValidate re params
  | .udp => udpValidate re params
  | .ssh => sshValidate re params
  | .snmp => snmpValidate params
  | .telnet => telnetValidate re params
  | .tlsCert => tlsValidate params

/-! ### Reading parameters -/

/-- `params.get(key, default)`, of an object. -/
def valueOr (params : Json) (key : String) (default : Json) : Json :=
  (params.get? key).join.getD default

variable {re : Regex} {params : Json} {timeoutMs : ℤ}

/-- The value of a key, or the default, of an object. -/
theorem valueOr_obj {fields : List (String × Json)} {key : String} {default : Json} :
    valueOr (.obj fields) key default =
      ((fields.find? fun field ↦ field.1 = key).map Prod.snd).getD default := rfl

/-- `params.get(key, default)` needs an object. -/
theorem getOr_eq_ok {key : String} {default value : Json} :
    getOr params key default = .ok value ↔
      (∃ fields, params = .obj fields) ∧ valueOr params key default = value := by
  rw [getOr]
  cases params with
  | obj fields => simp [Json.get?, valueOr_obj]
  | _ => simp [Json.get?]

theorem getField_eq_ok {key : String} {value : Json} :
    getField params key = .ok value ↔
      (∃ fields, params = .obj fields) ∧ valueOr params key .null = value :=
  getOr_eq_ok

/-- Of an object, it is the value or `null`. -/
theorem getField_obj {fields : List (String × Json)} {key : String} :
    getField (.obj fields) key = .ok (valueOr (.obj fields) key .null) :=
  getField_eq_ok.2 ⟨⟨fields, rfl⟩, rfl⟩

/-- Of an object, it is the value or the default. -/
theorem getOr_obj {fields : List (String × Json)} {key : String} {default : Json} :
    getOr (.obj fields) key default = .ok (valueOr (.obj fields) key default) :=
  getOr_eq_ok.2 ⟨⟨fields, rfl⟩, rfl⟩

/-- The timeout passes if its seconds are none too large for a float. -/
theorem checkTimeout_eq_ok : checkTimeout timeoutMs = .ok () ↔ overflows timeoutMs = false := by
  rw [checkTimeout]
  rcases overflows timeoutMs <;> simp

/-- A pattern passes if it is a text that `re.compile` takes. -/
theorem checkPattern_eq_ok {message : String} {pattern : Json} :
    checkPattern re message pattern = .ok () ↔
      ∃ text, pattern = .str text ∧ re.compile text = none := by
  unfold checkPattern
  split
  case h_1 text => rcases hcompile : re.compile text with - | e <;> simp [hcompile]
  case h_2 hno =>
    refine iff_of_false (by simp) ?_
    rintro ⟨text, htext, -⟩
    exact hno text htext

/-- A pattern that was accepted can be searched for. -/
theorem searchIn_of_checkPattern {message : String} {pattern : Json}
    (h : checkPattern re message pattern = .ok ()) (text : String) :
    ∃ b, searchIn re pattern text = .ok b := by
  obtain ⟨pattern, rfl, hcompile⟩ := checkPattern_eq_ok.1 h
  exact ⟨re.search pattern text, by simp only [searchIn, hcompile]⟩

/-- A port that is required is a number. -/
theorem pyInt_of_requirePort {port : ℤ} (h : requirePort params = .ok port) :
    (valueOr params "port" .null).pyInt = some port := by
  obtain ⟨value, hvalue, h⟩ := except_bind_eq_ok.1 h
  rw [(getField_eq_ok.1 hvalue).2]
  split at h
  case h_1 => cases h
  case h_2 => split at h <;> cases h
  case h_3 raw _ _ =>
    split at h
    case h_1 => cases h
    case h_2 n hn =>
      split at h
      case isTrue => rw [hn, Except.ok.inj h]
      case isFalse => cases h

/-- The validation of a port is `require_port`, where there is one. -/
theorem validatePort_of_requirePort {port : ℤ} (h : requirePort params = .ok port) :
    validatePort params = .ok () := by
  obtain ⟨value, hvalue, -⟩ := except_bind_eq_ok.1 h
  refine except_bind_eq_ok.2 ⟨value, hvalue, ?_⟩
  split
  case h_1 => rfl
  case h_2 => exact except_bind_eq_ok.2 ⟨port, h, rfl⟩

/-- A port that was accepted is none, or a number. -/
theorem port_of_validatePort (h : validatePort params = .ok ()) :
    (∃ fields, params = .obj fields) ∧ (valueOr params "port" .null = .null ∨
      ∃ port, requirePort params = .ok port) := by
  obtain ⟨value, hvalue, h⟩ := except_bind_eq_ok.1 h
  obtain ⟨hobj, hport⟩ := getField_eq_ok.1 hvalue
  refine ⟨hobj, ?_⟩
  rw [hport]
  split at h
  case h_1 => exact .inl rfl
  case h_2 =>
    obtain ⟨port, hrequired, -⟩ := except_bind_eq_ok.1 h
    exact .inr ⟨port, hrequired⟩

theorem portParam_obj {fields : List (String × Json)} {default : ℤ} :
    portParam (.obj fields) default = intOf (valueOr (.obj fields) "port" (.int default)) := by
  rw [portParam, intOf, valueOr_obj]
  rfl

theorem intOf_eq_ok {value : Json} {n : ℤ} : intOf value = .ok n ↔ value.pyInt = some n := by
  rw [intOf]
  rcases value.pyInt with - | m <;> simp

/-- An accepted port can be read with its default, unless it is set to `null`. -/
theorem portParam_iff_of_validatePort (default : ℤ) (h : validatePort params = .ok ()) :
    (∃ port, portParam params default = .ok port) ↔ params.get? "port" ≠ some (some .null) := by
  obtain ⟨⟨fields, rfl⟩, hport⟩ := port_of_validatePort h
  rw [portParam_obj]
  simp only [intOf_eq_ok]
  rw [valueOr]
  rcases hget : (Json.obj fields).get? "port" with - | - | value
  · exact iff_of_true ⟨default, rfl⟩ (by simp)
  · exact iff_of_true ⟨default, rfl⟩ (by simp)
  · have hvalue : valueOr (.obj fields) "port" .null = value := by
      rw [valueOr, hget]
      rfl
    rw [hvalue] at hport
    rcases hport with rfl | ⟨port, hrequired⟩
    · exact iff_of_false (by simp [Json.pyInt]) (by simp)
    · have hint := pyInt_of_requirePort hrequired
      rw [hvalue] at hint
      refine iff_of_true ⟨port, hint⟩ fun hnull ↦ ?_
      cases hnull
      cases hint

/-! ### What is accepted -/

/-- What the validation of TCP and UDP parameters accepts: a port, and nothing or a pattern to be
expected. -/
theorem expect_of_tcpValidate (h : tcpValidate re params = .ok ()) :
    (∃ fields, params = .obj fields) ∧ (∃ port, requirePort params = .ok port) ∧
      (valueOr params "expect" .null = .null ∨
        checkPattern re "'expect' is not a valid regex: " (valueOr params "expect" .null) =
          .ok ()) := by
  obtain ⟨port, hport, h⟩ := except_bind_eq_ok.1 h
  obtain ⟨expect, hexpect, h⟩ := except_bind_eq_ok.1 h
  obtain ⟨hobj, hvalue⟩ := getField_eq_ok.1 hexpect
  refine ⟨hobj, ⟨port, hport⟩, ?_⟩
  rw [hvalue]
  split at h
  case h_1 => exact .inl rfl
  case h_2 => exact .inr h

/-- The SNMP checker's validation looks at the port. -/
theorem port_of_snmpValidate (h : snmpValidate params = .ok ()) : validatePort params = .ok () := by
  obtain ⟨version, -, h⟩ := except_bind_eq_ok.1 h
  split at h
  case isTrue => cases h
  case isFalse =>
    obtain ⟨_, hport, -⟩ := except_bind_eq_ok.1 h
    exact hport

theorem port_of_sshValidate (h : sshValidate re params = .ok ()) :
    validatePort params = .ok () := by
  obtain ⟨value, hvalue, h⟩ := except_bind_eq_ok.1 h
  split at h
  case h_1 => exact except_bind_eq_ok.2 ⟨.null, hvalue, rfl⟩
  case h_2 =>
    obtain ⟨port, hport, -⟩ := except_bind_eq_ok.1 h
    exact validatePort_of_requirePort hport

theorem oneOf_eq_true {texts : List String} {value : Json} :
    oneOf texts value = true ↔ ∃ text ∈ texts, value = .str text := by
  cases value <;> simp [oneOf]

/-- What the validation of HTTP parameters accepts. -/
structure HttpAccepted (re : Regex) (fields : List (String × Json)) : Prop where
  /-- One of the two there are. -/
  scheme : ∃ text ∈ ["http", "https"], valueOr (.obj fields) "scheme" (.str "http") = .str text
  /-- A port, where one is given. -/
  port : validatePort (.obj fields) = .ok ()
  /-- An expression that can be searched with, whatever the text. -/
  bodyRe : (valueOr (.obj fields) "expected_body_regex" .null).truthy = true → ∀ text, ∃ b,
    searchIn re (valueOr (.obj fields) "expected_body_regex" .null) text = .ok b
  /-- None, or a list. What is in the list is not looked at. -/
  statuses : valueOr (.obj fields) "expected_status" .null = .null ∨
    ∃ statuses, valueOr (.obj fields) "expected_status" .null = .arr statuses

/-- Status codes are a list, or none are given. -/
theorem eq_arr_of_validateStatuses {codes : Json} {u : Unit} (h : validateStatuses codes = .ok u) :
    codes = .null ∨ ∃ statuses, codes = .arr statuses := by
  cases codes with
  | null => exact .inl rfl
  | arr statuses => exact .inr ⟨statuses, rfl⟩
  | _ => cases h

/-- What the HTTP checker's validation has looked at, in parameters that it accepts. -/
theorem httpAccepted_of_validate (h : httpValidate re params = .ok ()) :
    ∃ fields, params = .obj fields ∧ HttpAccepted re fields := by
  obtain ⟨scheme, hscheme, h⟩ := except_bind_eq_ok.1 h
  obtain ⟨⟨fields, rfl⟩, hscheme⟩ := getOr_eq_ok.1 hscheme
  refine ⟨fields, rfl, ?_⟩
  split at h
  case isTrue => cases h
  case isFalse hone =>
    rw [Bool.not_eq_true', Bool.not_eq_false, oneOf_eq_true] at hone
    obtain ⟨_, hport, h⟩ := except_bind_eq_ok.1 h
    rw [getField_obj, getField_obj] at h
    obtain ⟨bodyRe, hbody, h⟩ := except_bind_eq_ok.1 h
    obtain rfl := Except.ok.inj hbody
    split at h
    case isTrue =>
      obtain ⟨_, hpattern, h⟩ := except_bind_eq_ok.1 h
      exact ⟨hscheme ▸ hone, hport, fun _ ↦ searchIn_of_checkPattern hpattern,
        eq_arr_of_validateStatuses h⟩
    case isFalse hfalsy =>
      exact ⟨hscheme ▸ hone, hport, fun h ↦ absurd h hfalsy, eq_arr_of_validateStatuses h⟩

end Checks
