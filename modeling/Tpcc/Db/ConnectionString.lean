import Mathlib.Algebra.GroupWithZero.Nat
import Mathlib.Algebra.Ring.Int.Defs
import Mathlib.Data.List.DropRight

/-! `ParseConnectionString`, and that it reads back what is written in either of its two formats.
Strings are lists of characters. -/

namespace Tpcc.Db

abbrev Text := List Char

structure ObConnectionConfig where
  host : Text := "127.0.0.1".toList
  port : Int := 2881
  user : Text := "root@test".toList
  password : Text := []
  database : Text := "tpcc".toList
  path : Text := []
  deriving DecidableEq

/-- The exceptions of `std::stoi`. -/
inductive StoiError
  | invalidArgument
  | outOfRange
  deriving DecidableEq

/-- `std::isspace` in the C locale. -/
def isSpace (c : Char) : Bool :=
  c = ' ' || c = '\t' || c = '\n' || c = '\x0b' || c = '\x0c' || c = '\r'

def trim (s : Text) : Text := (s.dropWhile isSpace).rdropWhile isSpace

/-- The sign of a number, and what follows it. -/
def readSign : Text → Bool × Text
  | '-' :: rest => (true, rest)
  | '+' :: rest => (false, rest)
  | rest => (false, rest)

/-- `std::stoi`: whitespace, a sign, and digits up to the first other character. -/
def stoi (value : Text) : Except StoiError Int :=
  let (negative, rest) := readSign (value.dropWhile isSpace)
  let digits := rest.takeWhile Char.isDigit
  if digits = [] then .error .invalidArgument
  else
    let magnitude := Nat.ofDigitChars 10 digits 0
    let number : Int := if negative then -magnitude else magnitude
    if -2 ^ 31 ≤ number ∧ number < 2 ^ 31 then .ok number else .error .outOfRange

/-- `SetKv`. -/
def setKv (cfg : ObConnectionConfig) (key value : Text) : Except StoiError ObConnectionConfig :=
  if key = "host".toList ∨ key = "hostname".toList then .ok { cfg with host := value }
  else if key = "port".toList then (stoi value).map fun port => { cfg with port := port }
  else if key = "user".toList ∨ key = "uid".toList then .ok { cfg with user := value }
  else if key = "password".toList ∨ key = "pwd".toList ∨ key = "passwd".toList then
    .ok { cfg with password := value }
  else if key = "database".toList ∨ key = "db".toList ∨ key = "dbname".toList then
    .ok { cfg with database := value }
  else if key = "path".toList then .ok { cfg with path := value }
  else .ok cfg

/-- The tokens that `std::getline` reads: `token` is what it has of the current one. -/
def getlines (sep : Char) : Text → Text → List Text
  | token, [] => if token = [] then [] else [token]
  | token, c :: rest =>
    if c = sep then token :: getlines sep [] rest else getlines sep (token ++ [c]) rest

/-- The body of the loop over the tokens. -/
def parseToken (cfg : ObConnectionConfig) (token : Text) : Except StoiError ObConnectionConfig :=
  let token := trim token
  if token = [] then .ok cfg
  else
    match token.findIdx? (· = '=') with
    | none => .ok cfg
    | some eq => setKv cfg (trim (token.take eq)) (trim (token.drop (eq + 1)))

/-- `ParseConnectionString`. -/
def parseConnectionString (connection : Text) : Except StoiError ObConnectionConfig :=
  if connection = [] then .ok {}
  else
    let sep := if ';' ∈ connection then ';' else ' '
    (getlines sep [] connection).foldlM parseToken {}

inductive Field
  | host
  | port
  | user
  | password
  | database
  | path
  deriving DecidableEq

/-- A field of a configuration with its value, to be written as `key=value`. -/
inductive Setting
  | host (value : Text)
  | port (value : Int)
  | user (value : Text)
  | password (value : Text)
  | database (value : Text)
  | path (value : Text)
  deriving DecidableEq

namespace Setting

def field : Setting → Field
  | .host _ => .host
  | .port _ => .port
  | .user _ => .user
  | .password _ => .password
  | .database _ => .database
  | .path _ => .path

/-- The keys under which a field is accepted. -/
def keys : Setting → List Text
  | .host _ => ["host".toList, "hostname".toList]
  | .port _ => ["port".toList]
  | .user _ => ["user".toList, "uid".toList]
  | .password _ => ["password".toList, "pwd".toList, "passwd".toList]
  | .database _ => ["database".toList, "db".toList, "dbname".toList]
  | .path _ => ["path".toList]

/-- A number in decimal, as `std::to_string` writes it. -/
def decimal (n : Int) : Text :=
  if n < 0 then '-' :: Nat.toDigits 10 n.natAbs else Nat.toDigits 10 n.natAbs

/-- The value as text. -/
def text : Setting → Text
  | .port value => decimal value
  | .host value | .user value | .password value | .database value | .path value => value

/-- A configuration with the field set. -/
def apply (cfg : ObConnectionConfig) : Setting → ObConnectionConfig
  | .host value => { cfg with host := value }
  | .port value => { cfg with port := value }
  | .user value => { cfg with user := value }
  | .password value => { cfg with password := value }
  | .database value => { cfg with database := value }
  | .path value => { cfg with path := value }

end Setting

/-- Every key that `SetKv` knows. -/
def acceptedKeys : List Text :=
  ["host", "hostname", "port", "user", "uid", "password", "pwd", "passwd", "database", "db",
    "dbname", "path"].map String.toList

/-- How a string is written: the character between its tokens, those that no token contains, and
those that may stand around keys and values. -/
structure Format where
  sep : Char
  forbidden : Char → Bool
  padding : Char → Bool
  forbidden_sep : forbidden sep = true
  isSpace_of_padding : ∀ c, padding c = true → isSpace c = true
  free_of_padding : ∀ c, padding c = true → forbidden c = false
  free_of_pair : ∀ c, c = '=' ∨ c = '-' ∨ c.isDigit = true ∨ c.isLower = true → forbidden c = false

/-- Tokens between semicolons. -/
def semicolons : Format where
  sep := ';'
  forbidden c := c = ';'
  padding := isSpace
  forbidden_sep := by decide
  isSpace_of_padding _ h := h
  free_of_padding c h := by simp only [decide_eq_false_iff_not]; rintro rfl; revert h; decide
  free_of_pair c h := by simp only [decide_eq_false_iff_not]; rintro rfl; revert h; decide

/-- Tokens between spaces. -/
def spaces : Format where
  sep := ' '
  forbidden c := c = ' ' || c = ';'
  padding c := isSpace c && c ≠ ' '
  forbidden_sep := by decide
  isSpace_of_padding c h := by simp only [Bool.and_eq_true] at h; exact h.1
  free_of_padding c h := by
    simp only [Bool.or_eq_false_iff, decide_eq_false_iff_not]
    constructor <;> rintro rfl <;> revert h <;> decide
  free_of_pair c h := by
    simp only [Bool.or_eq_false_iff, decide_eq_false_iff_not]
    constructor <;> rintro rfl <;> revert h <;> decide

/-- A text without whitespace at its ends. -/
def Trimmed (s : Text) : Prop :=
  (∀ c ∈ s.head?, isSpace c = false) ∧ ∀ c ∈ s.getLast?, isSpace c = false

/-- The values that a format can write. -/
def Setting.Valid (format : Format) : Setting → Prop
  | .port value => -2 ^ 31 ≤ value ∧ value < 2 ^ 31
  | .host value | .user value | .password value | .database value | .path value =>
    Trimmed value ∧ ∀ c ∈ value, format.forbidden c = false

/-- The tokens of a format, with the setting that each writes: a pair, a pair with a key that is not
accepted, or a text without `=`. -/
inductive Token (format : Format) : Text → Option Setting → Prop
  | setting {s : Setting} {key a b c d : Text} (hvalid : s.Valid format) (hkey : key ∈ s.keys)
      (ha : ∀ x ∈ a, format.padding x = true) (hb : ∀ x ∈ b, format.padding x = true)
      (hc : ∀ x ∈ c, format.padding x = true) (hd : ∀ x ∈ d, format.padding x = true) :
      Token format ((a ++ key ++ b) ++ '=' :: (c ++ s.text ++ d)) (some s)
  | unknown {key value : Text} (hequals : '=' ∉ key) (hunknown : trim key ∉ acceptedKeys)
      (hfree : ∀ x ∈ key ++ '=' :: value, format.forbidden x = false) :
      Token format (key ++ '=' :: value) none
  | bare {token : Text} (hequals : '=' ∉ token)
      (hfree : ∀ x ∈ token, format.forbidden x = false) : Token format token none

/-- The strings of so many tokens joined by one or more separators, with the settings they write. -/
inductive Joined (format : Format) : Nat → Text → List Setting → Prop
  | one {token : Text} {s : Option Setting} (htoken : Token format token s) :
      Joined format 1 token s.toList
  | cons {count n : Nat} {token text : Text} {s : Option Setting} {settings : List Setting}
      (htoken : Token format token s) (hrest : Joined format count text settings) :
      Joined format (count + 1) (token ++ format.sep :: (List.replicate n format.sep ++ text))
        (s.toList ++ settings)

/-- The configuration after some settings, from the default one. -/
def written (settings : List Setting) : ObConnectionConfig := settings.foldl Setting.apply {}

/-- The settings of a configuration. -/
def ObConnectionConfig.settings (cfg : ObConnectionConfig) : List Setting :=
  [.host cfg.host, .port cfg.port, .user cfg.user, .password cfg.password, .database cfg.database,
    .path cfg.path]

section Trim

variable {s s' pad pad' : Text}

theorem rdropWhile_append_of_pos {p : Char → Bool} (h : ∀ c ∈ s', p c = true) :
    (s ++ s').rdropWhile p = s.rdropWhile p := by
  rw [List.rdropWhile, List.reverse_append, List.dropWhile_append_of_pos (by simpa using h),
    List.rdropWhile]

theorem rdropWhile_append_cons {p : Char → Bool} {c : Char} (h : p c = false) :
    (s ++ c :: s').rdropWhile p = s ++ c :: s'.rdropWhile p := by
  rw [List.rdropWhile, List.reverse_append, List.reverse_cons, List.append_assoc,
    List.dropWhile_append, List.rdropWhile]
  split
  · next hall => simp [List.isEmpty_iff.mp hall, h]
  · simp

theorem trim_eq_self (h : Trimmed s) : trim s = s := by
  have hfirst : s.dropWhile isSpace = s := by
    cases s with
    | nil => rfl
    | cons c s => rw [List.dropWhile_cons_of_neg (by simp [h.1 c rfl])]
  rw [trim, hfirst, List.rdropWhile_eq_self_iff]
  intro hne
  simp [h.2 _ (List.getLast?_eq_some_getLast hne)]

/-- Whitespace around a text is trimmed. -/
theorem trim_pad (hpad : ∀ c ∈ pad, isSpace c = true) (hpad' : ∀ c ∈ pad', isSpace c = true) :
    trim (pad ++ s ++ pad') = trim s := by
  rw [trim, List.append_assoc, List.dropWhile_append_of_pos hpad, List.dropWhile_append]
  split
  · next hall =>
    rw [List.isEmpty_iff] at hall
    rw [trim, hall, List.dropWhile_eq_nil_iff.mpr hpad']
  · exact rdropWhile_append_of_pos hpad'

theorem trim_dropWhile : trim (s.dropWhile isSpace) = trim s := by
  have h := @trim_pad (s.dropWhile isSpace) (s.takeWhile isSpace) []
    (fun _ hc => List.mem_takeWhile_imp hc) (by simp)
  rw [List.takeWhile_append_dropWhile, List.append_nil] at h
  exact h.symm

theorem trim_rdropWhile : trim (s.rdropWhile isSpace) = trim s := by
  have h := @trim_pad (s.rdropWhile isSpace) [] (s.rtakeWhile isSpace) (by simp)
    (fun _ hc => List.mem_rtakeWhile_imp hc)
  rw [List.nil_append, List.rdropWhile_append_rtakeWhile] at h
  exact h.symm

/-- A pair is trimmed before its key and behind its value. -/
theorem trim_pair : trim (s ++ '=' :: s') = s.dropWhile isSpace ++ '=' :: s'.rdropWhile isSpace := by
  have hequals : isSpace '=' = false := by decide
  rw [trim, List.dropWhile_append]
  split
  · next hall =>
    rw [List.isEmpty_iff.mp hall, List.dropWhile_cons_of_neg (by simp [hequals])]
    exact @rdropWhile_append_cons [] _ _ _ hequals
  · exact rdropWhile_append_cons hequals

end Trim

/-- A kind of characters without the six spaces has no space. -/
theorem not_isSpace_of_kind {kind : Char → Bool} {c : Char}
    (hkind : [' ', '\t', '\n', '\x0b', '\x0c', '\r'].all (!kind ·) = true) (h : kind c = true) :
    isSpace c = false := by
  by_contra hspace
  rw [Bool.not_eq_false] at hspace
  have hmem : c ∈ [' ', '\t', '\n', '\x0b', '\x0c', '\r'] := by
    simpa [isSpace, or_assoc] using hspace
  have hnot := List.all_eq_true.1 hkind c hmem
  rw [h] at hnot
  cases hnot

theorem trimmed_of_not_isSpace {s : Text} (h : ∀ c ∈ s, isSpace c = false) : Trimmed s :=
  ⟨fun c hc => h c (List.mem_of_mem_head? hc), fun c hc => h c (List.mem_of_mem_getLast? hc)⟩

section Port

theorem isDigit_of_mem_toDigits {n : Nat} {c : Char} (h : c ∈ Nat.toDigits 10 n) :
    c.isDigit = true := Nat.isDigit_of_mem_toDigits (by decide) (by decide) h

/-- A character of a decimal number. -/
theorem mem_decimal {n : Int} {c : Char} (h : c ∈ Setting.decimal n) : c = '-' ∨ c.isDigit = true := by
  unfold Setting.decimal at h
  split at h
  · rcases List.mem_cons.mp h with rfl | h
    · exact .inl rfl
    · exact .inr (isDigit_of_mem_toDigits h)
  · exact .inr (isDigit_of_mem_toDigits h)

theorem not_isSpace_of_mem_decimal {n : Int} {c : Char} (h : c ∈ Setting.decimal n) :
    isSpace c = false := by
  rcases mem_decimal h with rfl | h
  · decide
  · exact not_isSpace_of_kind (by decide) h

theorem trimmed_decimal (n : Int) : Trimmed (Setting.decimal n) :=
  trimmed_of_not_isSpace fun _ hc => not_isSpace_of_mem_decimal hc

theorem readSign_decimal (n : Int) :
    readSign (Setting.decimal n) = (decide (n < 0), Nat.toDigits 10 n.natAbs) := by
  unfold Setting.decimal
  split
  · next h => simp [readSign, h]
  · next h =>
    -- a digit is no sign
    have hdigit := @isDigit_of_mem_toDigits n.natAbs
    unfold readSign
    split
    · next heq => rw [heq] at hdigit; exact absurd (hdigit List.mem_cons_self) (by decide)
    · next heq => rw [heq] at hdigit; exact absurd (hdigit List.mem_cons_self) (by decide)
    · simp [h]

theorem stoi_decimal {n : Int} (hlow : -2 ^ 31 ≤ n) (hhigh : n < 2 ^ 31) :
    stoi (Setting.decimal n) = .ok n := by
  have hspace : (Setting.decimal n).dropWhile isSpace = Setting.decimal n := by
    rw [List.dropWhile_eq_self_iff]
    intro hne
    simp [not_isSpace_of_mem_decimal (List.getElem_mem hne)]
  have hdigits : (Nat.toDigits 10 n.natAbs).takeWhile Char.isDigit = Nat.toDigits 10 n.natAbs :=
    List.takeWhile_eq_self_iff.mpr fun _ hc => isDigit_of_mem_toDigits hc
  have hvalue : (if decide (n < 0) = true then -(n.natAbs : Int) else (n.natAbs : Int)) = n := by
    by_cases hnegative : n < 0
    · rw [if_pos (decide_eq_true hnegative)]
      omega
    · rw [if_neg (by simpa using hnegative)]
      omega
  simp only [stoi, hspace, readSign_decimal, hdigits, Nat.toDigits_ne_nil, if_false,
    Nat.ofDigitChars_ten_toDigits, hvalue]
  rw [if_pos ⟨hlow, hhigh⟩]

end Port

section Keys

/-- What the keys of a field have in common. -/
theorem mem_acceptedKeys {s : Setting} {key : Text} (h : key ∈ s.keys) : key ∈ acceptedKeys := by
  have hkeys : ∀ key ∈ s.keys, key ∈ acceptedKeys := by
    cases s <;> simp only [Setting.keys] <;> decide
  exact hkeys key h

theorem isLower_of_mem_key {key : Text} (h : key ∈ acceptedKeys) {c : Char} (hc : c ∈ key) :
    c.isLower = true := by
  have hlower : acceptedKeys.all (·.all Char.isLower) = true := by decide
  exact List.all_eq_true.1 (List.all_eq_true.1 hlower key h) c hc

theorem trimmed_key {key : Text} (h : key ∈ acceptedKeys) : Trimmed key :=
  trimmed_of_not_isSpace fun _ hc => not_isSpace_of_kind (by decide) (isLower_of_mem_key h hc)

variable {cfg : ObConnectionConfig} {format : Format} {s : Setting}

theorem Setting.Valid.trimmed (h : s.Valid format) : Trimmed s.text := by
  cases s with
  | port value => exact trimmed_decimal value
  | host value | user value | password value | database value | path value => exact h.1

theorem Setting.Valid.free (h : s.Valid format) {c : Char} (hc : c ∈ s.text) :
    format.forbidden c = false := by
  cases s with
  | port value =>
    rcases mem_decimal hc with rfl | hdigit
    · exact format.free_of_pair _ (.inr (.inl rfl))
    · exact format.free_of_pair _ (.inr (.inr (.inl hdigit)))
  | host value | user value | password value | database value | path value => exact h.2 c hc

/-- Every accepted key sets its field. -/
theorem setKv_of_mem_keys (hvalid : s.Valid format) {key : Text} (hkey : key ∈ s.keys) :
    setKv cfg key s.text = .ok (s.apply cfg) := by
  cases s with
  | port value =>
    obtain rfl : key = "port".toList := by simpa [Setting.keys] using hkey
    simp [setKv, Setting.text, stoi_decimal hvalid.1 hvalid.2, Setting.apply, Except.map]
  | host value | user value | password value | database value | path value =>
    simp only [Setting.keys, List.mem_cons, List.not_mem_nil, or_false] at hkey
    rcases hkey with rfl | rfl | rfl <;> rfl

theorem setKv_of_notMem {key value : Text} (h : key ∉ acceptedKeys) :
    setKv cfg key value = .ok cfg := by
  simp only [acceptedKeys, List.map_cons, List.map_nil, List.mem_cons, List.not_mem_nil, or_false,
    not_or] at h
  simp only [setKv, h, or_self, if_false]

end Keys

section Parse

variable {cfg : ObConnectionConfig} {format : Format}

theorem findIdx?_append_cons {key value : Text} (h : '=' ∉ key) :
    (key ++ '=' :: value).findIdx? (· = '=') = some key.length := by
  rw [List.findIdx?_append, List.findIdx?_eq_none_iff.mpr]
  · simp [List.findIdx?_cons]
  · intro c hc
    simp only [decide_eq_false_iff_not]
    rintro rfl
    exact h hc

/-- A token with `=` is split at the first one. -/
theorem parseToken_pair {key value : Text} (h : '=' ∉ key) :
    parseToken cfg (key ++ '=' :: value) = setKv cfg (trim key) (trim value) := by
  have h' : '=' ∉ key.dropWhile isSpace := fun hmem => h ((List.dropWhile_sublist _).subset hmem)
  simp only [parseToken, trim_pair, List.append_eq_nil_iff, reduceCtorEq, and_false, if_false,
    findIdx?_append_cons h', List.take_left, List.drop_length_add_append]
  rw [List.drop_succ_cons, List.drop_zero, trim_dropWhile, trim_rdropWhile]

/-- A token without `=` is skipped. -/
theorem parseToken_bare {token : Text} (h : '=' ∉ token) : parseToken cfg token = .ok cfg := by
  have hnone : (trim token).findIdx? (· = '=') = none := by
    rw [List.findIdx?_eq_none_iff]
    intro c hc
    simp only [decide_eq_false_iff_not]
    rintro rfl
    exact h ((List.dropWhile_sublist _).subset ((List.rdropWhile_prefix _ _).subset hc))
  simp [parseToken, hnone]

/-- A token writes its setting. -/
theorem Token.parse {token : Text} {s : Option Setting} (h : Token format token s) :
    parseToken cfg token = .ok (s.toList.foldl Setting.apply cfg) := by
  cases h with
  | @setting s key a b c d hvalid hkey ha hb hc hd =>
    have hlower : ∀ c ∈ key, c.isLower = true := fun _ =>
      isLower_of_mem_key (mem_acceptedKeys hkey)
    have hpadded : '=' ∉ a ++ key ++ b := by
      simp only [List.mem_append, not_or]
      refine ⟨⟨fun hmem => ?_, fun hmem => ?_⟩, fun hmem => ?_⟩
      · exact absurd (format.isSpace_of_padding _ (ha _ hmem)) (by decide)
      · exact absurd (hlower _ hmem) (by decide)
      · exact absurd (format.isSpace_of_padding _ (hb _ hmem)) (by decide)
    have hspace : ∀ {t : Text}, (∀ x ∈ t, format.padding x = true) → ∀ x ∈ t, isSpace x = true :=
      fun ht x hx => format.isSpace_of_padding x (ht x hx)
    rw [parseToken_pair hpadded, trim_pad (hspace ha) (hspace hb), trim_pad (hspace hc) (hspace hd),
      trim_eq_self (trimmed_key (mem_acceptedKeys hkey)), trim_eq_self hvalid.trimmed,
      setKv_of_mem_keys hvalid hkey]
    rfl
  | unknown hequals hunknown hfree =>
    rw [parseToken_pair hequals, setKv_of_notMem hunknown]
    rfl
  | bare hequals hfree => exact parseToken_bare hequals

/-- A token has no character that its format forbids. -/
theorem Token.free {token : Text} {s : Option Setting} (h : Token format token s) {x : Char}
    (hx : x ∈ token) : format.forbidden x = false := by
  cases h with
  | @setting s key a b c d hvalid hkey ha hb hc hd =>
    simp only [List.mem_append, List.mem_cons] at hx
    obtain (((hx | hx) | hx) | rfl | ((hx | hx) | hx)) := hx
    · exact format.free_of_padding x (ha x hx)
    · exact format.free_of_pair x
        (.inr (.inr (.inr (isLower_of_mem_key (mem_acceptedKeys hkey) hx))))
    · exact format.free_of_padding x (hb x hx)
    · exact format.free_of_pair _ (.inl rfl)
    · exact format.free_of_padding x (hc x hx)
    · exact hvalid.free hx
    · exact format.free_of_padding x (hd x hx)
  | unknown hequals hunknown hfree => exact hfree x hx
  | bare hequals hfree => exact hfree x hx

theorem Token.sep_notMem {token : Text} {s : Option Setting} (h : Token format token s) :
    format.sep ∉ token := fun hmem => by simpa [format.forbidden_sep] using h.free hmem

theorem getlines_append {sep : Char} {token u rest : Text} (h : sep ∉ u) :
    getlines sep token (u ++ sep :: rest) = (token ++ u) :: getlines sep [] rest := by
  induction u generalizing token with
  | nil => simp [getlines]
  | cons c u ih =>
    rw [List.mem_cons, not_or] at h
    rw [List.cons_append, getlines, if_neg (Ne.symm h.1), ih h.2]
    simp

theorem getlines_last {sep : Char} {token u : Text} (h : sep ∉ u) :
    getlines sep token u = if token ++ u = [] then [] else [token ++ u] := by
  induction u generalizing token with
  | nil => simp [getlines]
  | cons c u ih =>
    rw [List.mem_cons, not_or] at h
    rw [getlines, if_neg (Ne.symm h.1), ih h.2]
    simp

theorem foldlM_separators {sep : Char} {n : Nat} {text : Text} :
    (getlines sep [] (List.replicate n sep ++ text)).foldlM parseToken cfg =
      (getlines sep [] text).foldlM parseToken cfg := by
  induction n with
  | zero => rfl
  | succ n ih =>
    have hempty : parseToken cfg [] = .ok cfg := parseToken_bare (by simp)
    rw [List.replicate_succ, List.cons_append, getlines, if_pos rfl, List.foldlM_cons, hempty]
    exact ih

/-- The loop over the tokens makes the settings they write. -/
theorem Joined.foldlM {count : Nat} {text : Text} {settings : List Setting}
    (h : Joined format count text settings) :
    (getlines format.sep [] text).foldlM parseToken cfg =
      .ok (settings.foldl Setting.apply cfg) := by
  induction h generalizing cfg with
  | @one token s htoken =>
    rw [getlines_last htoken.sep_notMem, List.nil_append]
    split
    · next hempty =>
      -- no token is read from nothing, and none would write nothing
      rw [← htoken.parse, hempty]
      exact (parseToken_bare (by simp)).symm
    · rw [List.foldlM_cons, htoken.parse]
      rfl
  | cons htoken hrest ih =>
    rw [getlines_append htoken.sep_notMem, List.nil_append, List.foldlM_cons, htoken.parse,
      List.foldl_append, ← ih]
    exact foldlM_separators

/-- What is written in a format is read back, when the separator is recognised. -/
theorem Joined.parse {count : Nat} {text : Text} {settings : List Setting}
    (h : Joined format count text settings)
    (hsep : (if ';' ∈ text then ';' else ' ') = format.sep) :
    parseConnectionString text = .ok (written settings) := by
  unfold parseConnectionString
  split
  · next hempty =>
    have hfold := @Joined.foldlM {} _ _ _ _ h
    rw [hempty] at hfold
    exact hfold
  · simp only [hsep]
    exact h.foldlM

/-- Two tokens have a separator between them. -/
theorem Joined.sep_mem {count : Nat} {text : Text} {settings : List Setting}
    (h : Joined format count text settings) (hcount : 2 ≤ count) : format.sep ∈ text := by
  cases h with
  | one htoken => omega
  | cons htoken hrest => simp

/-- Nothing but the separators is forbidden. -/
theorem Joined.free {count : Nat} {text : Text} {settings : List Setting}
    (h : Joined format count text settings) {x : Char} (hx : x ∈ text) (hsep : x ≠ format.sep) :
    format.forbidden x = false := by
  induction h with
  | one htoken => exact htoken.free hx
  | cons htoken hrest ih =>
    simp only [List.mem_append, List.mem_cons, List.mem_replicate] at hx
    rcases hx with hx | rfl | hx | hx
    · exact htoken.free hx
    · exact absurd rfl hsep
    · exact absurd hx.2 hsep
    · exact ih hx

end Parse

section Written

variable {cfg : ObConnectionConfig} {s s' : Setting} {settings : List Setting}

theorem mem_settings_apply : s ∈ (s.apply cfg).settings := by
  cases s <;> simp [Setting.apply, ObConnectionConfig.settings]

theorem mem_settings_apply_of_ne (h : s ∈ cfg.settings) (hne : s'.field ≠ s.field) :
    s ∈ (s'.apply cfg).settings := by
  cases s <;> cases s' <;>
    simp_all [Setting.apply, ObConnectionConfig.settings, Setting.field]

/-- A setting stays when no later one is for its field. -/
theorem mem_settings_foldl (h : s ∈ cfg.settings) (hlast : ∀ s' ∈ settings, s'.field ≠ s.field) :
    s ∈ (settings.foldl Setting.apply cfg).settings := by
  induction settings generalizing cfg with
  | nil => exact h
  | cons s' settings ih =>
    rw [List.forall_mem_cons] at hlast
    exact ih (mem_settings_apply_of_ne h hlast.1) hlast.2

/-- Of the settings for one field, the last one wins. -/
theorem mem_settings_written {before after : List Setting}
    (hlast : ∀ s' ∈ after, s'.field ≠ s.field) :
    s ∈ (written (before ++ s :: after)).settings := by
  rw [written, List.foldl_append, List.foldl_cons]
  exact mem_settings_foldl mem_settings_apply hlast

theorem settings_nodup : (cfg.settings.map Setting.field).Nodup := by
  simp [ObConnectionConfig.settings, Setting.field]

theorem settings_injective {cfg' : ObConnectionConfig}
    (h : ∀ s ∈ cfg.settings, s ∈ cfg'.settings) : cfg' = cfg := by
  cases cfg
  cases cfg'
  simp_all [ObConnectionConfig.settings]

/-- The settings of a configuration, in any order, write it. -/
theorem written_perm (hperm : settings.Perm cfg.settings) : written settings = cfg := by
  refine settings_injective fun s hs => ?_
  obtain ⟨before, after, rfl⟩ := List.append_of_mem (hperm.mem_iff.mpr hs)
  have hnodup := (hperm.map Setting.field).nodup_iff.mpr settings_nodup
  rw [List.map_append, List.map_cons, List.nodup_append, List.nodup_cons] at hnodup
  refine mem_settings_written fun s' hs' heq => hnodup.2.1.1 ?_
  exact heq ▸ List.mem_map_of_mem hs'

end Written

/-- Connection strings of either format are read back: at least two tokens between semicolons, or
tokens between spaces. The last of the settings for one field wins, a field without a setting keeps
its default, and all the settings of a configuration give that configuration. -/
theorem parseConnectionString_written :
    (∀ count text settings, Joined semicolons count text settings → 2 ≤ count →
      parseConnectionString text = .ok (written settings)) ∧
    (∀ count text settings, Joined spaces count text settings →
      parseConnectionString text = .ok (written settings)) ∧
    (∀ before s after, (∀ s' ∈ after, s'.field ≠ s.field) →
      s ∈ (written (before ++ s :: after)).settings) ∧
    (∀ settings, ∀ s ∈ ({} : ObConnectionConfig).settings,
      (∀ s' ∈ settings, s'.field ≠ s.field) → s ∈ (written settings).settings) ∧
    ∀ (cfg : ObConnectionConfig) settings, settings.Perm cfg.settings → written settings = cfg := by
  refine ⟨fun count text settings h hcount => ?_, fun count text settings h => ?_,
    fun before s after => mem_settings_written, fun settings s hs => mem_settings_foldl hs,
    fun cfg settings => written_perm⟩
  · exact h.parse (if_pos (h.sep_mem hcount))
  · refine h.parse (if_neg fun hmem => ?_)
    exact absurd (h.free hmem (by decide)) (by decide)

/-- A padded pair, an empty token, a text without `=` and a port between semicolons; and a value
that holds `=` before two spaces and another text. -/
theorem parseConnectionString_written_mixed_tokens :
    parseConnectionString " hostname = my host;;verbose;port=-5 ".toList =
        .ok { host := "my host".toList, port := -5 } ∧
      parseConnectionString "uid=a=b  -v".toList = .ok { user := "a=b".toList } ∧
      Setting.port (-5) ∈ (written [.host "my host".toList, .port (-5)]).settings := by
  have hnone : ∀ format : Format, ∀ x ∈ ([] : Text), format.padding x = true :=
    fun _ => List.forall_mem_nil _
  have hspace : ∀ x ∈ [' '], semicolons.padding x = true := List.forall_mem_singleton.2 rfl
  have hhost : Token semicolons " hostname = my host".toList (some (.host "my host".toList)) :=
    @Token.setting semicolons (.host "my host".toList) "hostname".toList [' '] [' '] [' '] []
      (by simp [Setting.Valid, Trimmed, isSpace, semicolons]) (by decide) hspace hspace hspace
      (hnone _)
  have hbare : Token semicolons "verbose".toList none :=
    .bare (by decide) (by simp [semicolons])
  have hport : Token semicolons ("port=".toList ++ Setting.decimal (-5) ++ [' '])
      (some (.port (-5))) :=
    @Token.setting semicolons (.port (-5)) "port".toList [] [] [] [' '] (by simp [Setting.Valid])
      (by decide) (hnone _) (hnone _) (hnone _) hspace
  have hdecimal : Setting.decimal (-5) = "-5".toList := by decide
  rw [hdecimal] at hport
  have hsemicolons : Joined semicolons 3 " hostname = my host;;verbose;port=-5 ".toList
      [.host "my host".toList, .port (-5)] :=
    .cons (n := 1) hhost (.cons (n := 0) hbare (.one hport))
  have huser : Token spaces "uid=a=b".toList (some (.user "a=b".toList)) :=
    @Token.setting spaces (.user "a=b".toList) "uid".toList [] [] [] []
      (by simp [Setting.Valid, Trimmed, isSpace, spaces]) (by decide) (hnone _) (hnone _) (hnone _)
      (hnone _)
  have hflag : Token spaces "-v".toList none := .bare (by decide) (by simp [spaces])
  have hspaces : Joined spaces 2 "uid=a=b  -v".toList [.user "a=b".toList] :=
    .cons (n := 1) huser (.one hflag)
  obtain ⟨hread, hreadSpaces, hlast, -⟩ := parseConnectionString_written
  exact ⟨hread 3 _ _ hsemicolons (by decide), hreadSpaces 2 _ _ hspaces,
    hlast [.host "my host".toList] (.port (-5)) [] (List.forall_mem_nil _)⟩

example : parseConnectionString "host=localhost port=2883 dbname=tpcc2 user=root@test".toList =
    .ok { host := "localhost".toList, port := 2883, database := "tpcc2".toList } := by rfl

end Tpcc.Db
