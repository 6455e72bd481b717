import Openwsman.Lib.Comparable
import Mathlib.Data.List.TakeWhile

/-!
# The file authenticator

`authorize` of `file_auth.c` looks a user up in a password file of lines `user:hash` and compares
`crypt(password, hash)` with the stored hash. Both comparisons run over the shorter of the two
strings only, so the line it stops at is the first whose user field is *comparable* with the given
name. What the lookup is for is `firstListed`, the first line that names the user exactly.

`crypt` is a parameter, any function from a password and a salt to a string.
-/

namespace Openwsman.FileAuth

open Nat List PrefixOrder

/-- A C string: bytes without a terminator among them, so that `strlen` is the length. -/
structure CStr where
  bytes : List UInt8
  noNul : 0 ∉ bytes
  deriving DecidableEq

namespace CStr

def ofBuffer (buf : List UInt8) : CStr where
  bytes := buf.takeWhile (· != 0)
  noNul := fun h ↦ by simpa using List.mem_takeWhile_imp h

def strlen (s : CStr) : ℕ := s.bytes.length

def sub (s : CStr) (l : List UInt8) (h : l ⊆ s.bytes) : CStr := ⟨l, fun h0 ↦ s.noNul (h h0)⟩

end CStr

/-! ## Reading the file -/

/-- The capacity of the line buffer, without the byte that `fgets` keeps for the terminator. -/
def lineCapacity : ℕ := 255

/-- The buffers that successive calls of `fgets` deliver. A buffer ends behind a newline, when it
is full, or with the file; `room` is what is left of the current one and `acc` what it holds. -/
def linesFrom (room : ℕ) (acc : List UInt8) : List UInt8 → List (List UInt8)
  | [] => if acc.isEmpty then [] else [acc]
  | c :: rest =>
    if c == 10 || room == 1 then (acc ++ [c]) :: linesFrom lineCapacity [] rest
    else linesFrom (room - 1) (acc ++ [c]) rest

/-- The lines of a password file, as `while (fgets(l, sizeof(l), fp) != NULL)` sees them. -/
def lines (file : List UInt8) : List (List UInt8) := linesFrom lineCapacity [] file

def isSpaceByte (c : UInt8) : Bool := c == 32 || (9 ≤ c && c ≤ 13)

structure PasswdEntry where
  user : CStr
  passwd : CStr
  deriving DecidableEq

/-- The user field `%64[^:]` reads: up to 64 bytes in front of a colon. -/
def scanUser (l : CStr) : List UInt8 := (l.bytes.takeWhile (· != 58)).take 64

/-- The hash field `%128s` reads: blanks are skipped, then up to 128 bytes that are none. -/
def scanPasswd (rest : List UInt8) : List UInt8 :=
  ((rest.dropWhile isSpaceByte).takeWhile fun c ↦ !isSpaceByte c).take 128

theorem scanUser_subset (l : CStr) : scanUser l ⊆ l.bytes :=
  ((take_sublist _ _).trans (takeWhile_sublist _)).subset

theorem scanPasswd_subset (rest : List UInt8) : scanPasswd rest ⊆ rest :=
  ((take_sublist _ _).trans ((takeWhile_sublist _).trans (dropWhile_sublist _))).subset

/-- `sscanf(l, "%64[^:]:%128s", u, passwd) == 2`. A user field of more than 64 bytes is not
followed by a colon where the format asks for one, so its line is malformed. -/
def sscanfEntry (l : CStr) : Option PasswdEntry :=
  let u := scanUser l
  if u.isEmpty then none
  else
    match h : l.bytes.drop u.length with
    | [] => none
    | c :: rest =>
      if c == 58 then
        let p := scanPasswd rest
        if p.isEmpty then none
        else
          some
            { user := l.sub u (scanUser_subset l)
              passwd := l.sub p fun _ hx ↦
                List.drop_subset _ _ (h ▸ List.mem_cons_of_mem c (scanPasswd_subset rest hx)) }
      else none

def entries (file : List UInt8) : List PasswdEntry :=
  (lines file).filterMap fun l ↦ sscanfEntry (CStr.ofBuffer l)

/-! ## The comparison -/

def safeCmpLoop (result : UInt8) (s1 s2 : List UInt8) : ℕ → UInt8
  | 0 => result
  | n + 1 => safeCmpLoop (result ||| (s1.headD 0 ^^^ s2.headD 0)) s1.tail s2.tail n

def safeCmp (s1 s2 : List UInt8) (len : ℕ) : UInt8 := safeCmpLoop 0 s1 s2 len

theorem safeCmpLoop_eq_zero_iff (n : ℕ) :
    ∀ (r : UInt8) (s t : List UInt8), n ≤ s.length → n ≤ t.length →
      (safeCmpLoop r s t n = 0 ↔ r = 0 ∧ s.take n = t.take n) := by
  induction n with
  | zero => intro r s t _ _; simp [safeCmpLoop]
  | succ n ih =>
    intro r s t hs ht
    obtain ⟨a, s, rfl⟩ := exists_cons_of_length_pos (lt_of_lt_of_le n.succ_pos hs)
    obtain ⟨b, t, rfl⟩ := exists_cons_of_length_pos (lt_of_lt_of_le n.succ_pos ht)
    rw [safeCmpLoop, tail_cons, tail_cons,
      ih _ s t (le_of_succ_le_succ hs) (le_of_succ_le_succ ht), UInt8.or_eq_zero_iff,
      headD_cons, headD_cons, UInt8.xor_eq_zero_iff, take_succ_cons,
      take_succ_cons, cons.injEq, and_assoc]

theorem safeCmp_min_eq_zero_iff (s t : CStr) :
    safeCmp s.bytes t.bytes (min s.strlen t.strlen) = 0 ↔ Comparable s.bytes t.bytes := by
  rw [CStr.strlen, CStr.strlen, safeCmp,
    safeCmpLoop_eq_zero_iff _ 0 _ _ (min_le_left _ _) (min_le_right _ _),
    comparable_iff_take_min]
  simp only [true_and]

/-! ## The lookup -/

section

variable (crypt : CStr → CStr → CStr)

/-- The loop of `authorize` over the well-formed lines. It ends at the first line whose user field
passes the comparison, whatever the comparison of the hashes then says. -/
def authorizeLoop (username password : CStr) : List PasswdEntry → Bool
  | [] => false
  | e :: es =>
    if safeCmp username.bytes e.user.bytes (min username.strlen e.user.strlen) == 0 then
      let newpw := crypt password e.passwd
      safeCmp newpw.bytes e.passwd.bytes (min newpw.strlen e.passwd.strlen) == 0
    else authorizeLoop username password es

def authorize (file : Option (List UInt8)) (username password : Option CStr) : Bool :=
  match username, password with
  | some u, some p =>
    match file with
    | none => false
    | some f => authorizeLoop crypt u p (entries f)
  | _, _ => false

/-! ## What the lookup is for -/

def firstListed (file : List UInt8) (username : CStr) : Option PasswdEntry :=
  (entries file).find? fun e ↦ e.user = username

def firstComparable (file : List UInt8) (username : CStr) : Option PasswdEntry :=
  (entries file).find? fun e ↦ Comparable username.bytes e.user.bytes

def Listed (file : List UInt8) (username password : CStr) : Prop :=
  ∃ e, firstListed file username = some e ∧ crypt password e.passwd = e.passwd

/-- What the file authenticator is expected to do. The second half rules out logins under a proper
prefix or extension of a listed name, and hashes of another length. -/
def AuthorizeCorrect (file : List UInt8) (username password : CStr) : Prop :=
  (authorize crypt (some file) (some username) (some password) = true ↔
      Listed crypt file username password) ∧
    (authorize crypt (some file) (some username) (some password) = true →
      ∃ e ∈ entries file, e.user = username ∧
        (crypt password e.passwd).strlen = e.passwd.strlen)

/-- When the lookup does so: no user field is comparable with the name; or the first comparable one
is the name itself, and the hash computed from its line is not a proper prefix or extension of the
stored one; or it is another name, and its line happens to decide as the user's own line would. -/
def StopsAtOwnLine (file : List UInt8) (username password : CStr) : Prop :=
  ∀ e, firstComparable file username = some e →
    (e.user = username ∧
        (Comparable (crypt password e.passwd).bytes e.passwd.bytes →
          crypt password e.passwd = e.passwd)) ∨
      (e.user ≠ username ∧
        (Comparable (crypt password e.passwd).bytes e.passwd.bytes ↔
          Listed crypt file username password))

variable {crypt}

theorem authorizeLoop_eq_find (u p : CStr) (es : List PasswdEntry) :
    authorizeLoop crypt u p es = true ↔
      ∃ e, (es.find? fun e ↦ Comparable u.bytes e.user.bytes) = some e ∧
        Comparable (crypt p e.passwd).bytes e.passwd.bytes := by
  induction es with
  | nil => simp [authorizeLoop]
  | cons e es ih =>
    by_cases hu : Comparable u.bytes e.user.bytes
    · rw [authorizeLoop, if_pos (by rw [beq_iff_eq, safeCmp_min_eq_zero_iff]; exact hu),
        find?_cons_of_pos (by simpa using hu)]
      simp only [beq_iff_eq, safeCmp_min_eq_zero_iff, Option.some.injEq, exists_eq_left']
    · rw [authorizeLoop, if_neg (by rw [beq_iff_eq, safeCmp_min_eq_zero_iff]; exact hu),
        find?_cons_of_neg (by simpa using hu)]
      exact ih

theorem authorize_iff (file : List UInt8) (u p : CStr) :
    authorize crypt (some file) (some u) (some p) = true ↔
      ∃ e, firstComparable file u = some e ∧
        Comparable (crypt p e.passwd).bytes e.passwd.bytes := by
  rw [authorize, firstComparable]
  exact authorizeLoop_eq_find u p (entries file)

variable {file : List UInt8} {u : CStr}

/-- When the first comparable line carries the name itself it is the first exact one. -/
theorem firstListed_of_firstComparable {e : PasswdEntry} (h : firstComparable file u = some e)
    (hu : e.user = u) : firstListed file u = some e := by
  rw [firstComparable, find?_eq_some_iff_append] at h
  obtain ⟨-, as, bs, hsplit, hbefore⟩ := h
  rw [firstListed, find?_eq_some_iff_append]
  refine ⟨by simpa using hu, as, bs, hsplit, fun a ha ↦ ?_⟩
  have hnot : ¬Comparable u.bytes a.user.bytes := by simpa using hbefore a ha
  have hne : a.user ≠ u := by
    rintro rfl
    exact hnot (Comparable.refl _)
  simpa using hne

theorem firstListed_eq_none_of_firstComparable (h : firstComparable file u = none) :
    firstListed file u = none := by
  rw [firstComparable, find?_eq_none] at h
  rw [firstListed, find?_eq_none]
  intro e he heq
  have hu : e.user = u := by simpa using heq
  exact h e he (by rw [hu]; simpa using Comparable.refl u.bytes)

theorem exists_entry_of_listed {p : CStr} (h : Listed crypt file u p) :
    ∃ e ∈ entries file, e.user = u ∧ (crypt p e.passwd).strlen = e.passwd.strlen := by
  obtain ⟨e, he, hp⟩ := h
  have huser : e.user = u := by simpa using find?_some he
  exact ⟨e, mem_of_find?_eq_some he, huser, by rw [hp]⟩

/-- **The exact condition.** The authenticator decides by the user's own line exactly when the scan
stops there, or when stopping elsewhere makes no difference. -/
theorem authorizeCorrect_iff (file : List UInt8) (u p : CStr) :
    AuthorizeCorrect crypt file u p ↔ StopsAtOwnLine crypt file u p := by
  -- The second half of `AuthorizeCorrect` follows from the first, so only the verdict matters.
  have hdecide : AuthorizeCorrect crypt file u p ↔ ((∃ e, firstComparable file u = some e ∧
          Comparable (crypt p e.passwd).bytes e.passwd.bytes) ↔ Listed crypt file u p) := by
    rw [AuthorizeCorrect, authorize_iff]
    exact ⟨fun h ↦ h.1, fun h ↦ ⟨h, fun ha ↦ exists_entry_of_listed (h.mp ha)⟩⟩
  rw [hdecide]
  cases hc : firstComparable file u with
  | none =>
    have hl : ¬Listed crypt file u p := by
      rintro ⟨e, he, -⟩
      rw [firstListed_eq_none_of_firstComparable hc] at he
      exact absurd he (by simp)
    simp [StopsAtOwnLine, hc, hl]
  | some e =>
    simp only [StopsAtOwnLine, hc, Option.some.injEq, exists_eq_left', forall_eq']
    by_cases hu : e.user = u
    · -- the line the loop stops at is the user's own, so only the hashes are left to compare
      have hl : Listed crypt file u p ↔ crypt p e.passwd = e.passwd := by
        rw [Listed, firstListed_of_firstComparable hc hu]
        simp
      rw [hl]
      constructor
      · intro h
        exact .inl ⟨hu, h.mp⟩
      · rintro (⟨-, h⟩ | ⟨hne, -⟩)
        · exact ⟨h, fun heq ↦ by rw [heq]; exact Comparable.refl _⟩
        · exact absurd hu hne
    · constructor
      · intro h
        exact .inr ⟨hu, h⟩
      · rintro (⟨heq, -⟩ | ⟨-, h⟩)
        · exact absurd heq hu
        · exact h

end

/-- **A login under a proper prefix of a listed name.** The file is the line `bobby:HASH`; `bob`,
who is not listed, is let in with the password of `bobby`. -/
theorem not_authorizeCorrect_bob :
    ¬AuthorizeCorrect (fun _ salt ↦ salt) [98, 111, 98, 98, 121, 58, 72, 65, 83, 72, 10]
      ⟨[98, 111, 98], by decide⟩ ⟨[115, 101, 99, 114, 101, 116], by decide⟩ := by
  rintro ⟨hiff, -⟩
  obtain ⟨e, he, -⟩ := hiff.mp (by decide)
  exact absurd he (by rw [show firstListed _ _ = none by decide]; simp)

end Openwsman.FileAuth
