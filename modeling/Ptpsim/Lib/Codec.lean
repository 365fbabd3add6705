/-
# Self-delimiting codecs

A parser here is a state-passing function on a state that shows the input it
has not read yet (`view`), an encoder one that appends to an output list.
`Consumes view p xs v` says that `p` reads exactly `xs` and returns `v`,
whatever comes after `xs`; `Stable view p` that every success of `p` is of
that kind, so that `p` cannot change its mind when more input arrives.
`RoundTrips view m p v` says that what the encoder `m` appends, when it
succeeds, is a word that `p` consumes with result `v`.

All three compose along `bind`, so a record codec is checked field by field.
-/
import Mathlib.Data.List.Basic

namespace Ptpsim.Codec

open List

variable {σ ε ε' α β γ : Type} {view : σ → List β}

/-- `p` reads exactly `xs` and returns `v`, whatever follows `xs`. -/
def Consumes (view : σ → List β) (p : StateT σ (Except ε) α) (xs : List β) (v : α) : Prop :=
  ∀ s tail, view s = xs ++ tail → ∃ s', p s = .ok (v, s') ∧ view s' = tail

/-- Every success of `p` is the consumption of a word, independent of what
follows it. -/
def Stable (view : σ → List β) (p : StateT σ (Except ε) α) : Prop :=
  ∀ s v s', p s = .ok (v, s') → ∃ xs, view s = xs ++ view s' ∧ Consumes view p xs v

/-- What `m` appends when it succeeds is a word that `p` consumes with
result `v`. -/
def RoundTrips (view : σ → List β) (m : EStateM ε' (List β) Unit) (p : StateT σ (Except ε) α)
    (v : α) : Prop :=
  ∀ w w', m w = .ok () w' → ∃ bs, w' = w ++ bs ∧ Consumes view p bs v

theorem bind_apply (p : StateT σ (Except ε) α) (f : α → StateT σ (Except ε) γ) (s : σ) :
    (p >>= f) s = match p s with
      | .ok (v, s') => f v s'
      | .error e => .error e := by
  simp only [bind, StateT.bind, Except.bind]
  cases p s <;> rfl

variable {p : StateT σ (Except ε) α} {f : α → StateT σ (Except ε) γ} {s : σ} {v : α}
  {m m' : EStateM ε' (List β) Unit} {xs : List β} {u : γ}

theorem bind_ok {r : γ × σ} (h : (p >>= f) s = .ok r) :
    ∃ v s', p s = .ok (v, s') ∧ f v s' = .ok r := by
  rw [bind_apply] at h
  cases hp : p s with
  | error e => simp [hp] at h
  | ok q => exact ⟨q.1, q.2, rfl, by simpa [hp] using h⟩

variable {s' : σ} {ys : List β}

theorem map_ok {g : α → γ} {v : γ} (h : (g <$> p) s = .ok (v, s')) :
    ∃ u, p s = .ok (u, s') ∧ v = g u := by
  obtain ⟨u, s₁, h₁, h₂⟩ := bind_ok (f := fun u => Pure.pure (g u)) h
  cases h₂
  exact ⟨u, h₁, rfl⟩

theorem run'_ok (h : p.run' s = .ok v) : ∃ s', p s = .ok (v, s') := by
  unfold StateT.run' at h
  cases hp : p s with
  | error e => simp [hp] at h
  | ok r =>
    obtain ⟨u, s'⟩ := r
    simp only [hp, Functor.map, Except.map, Except.ok.injEq] at h
    exact ⟨s', by rw [h]⟩

theorem run'_of_ok (h : p s = .ok (v, s')) : p.run' s = .ok v := by
  simp only [StateT.run', h, Functor.map, Except.map]

/-! ### Sequences of writers -/

section Run

variable {τ : Type} {m : EStateM ε' τ α} {f : α → EStateM ε' τ γ} {w w' : τ}

theorem bind_run_ok {a : α} (h : m w = .ok a w') : (m >>= f) w = f a w' := by
  simp only [bind, EStateM.bind, h]

theorem bind_run_error {e : ε'} (h : m w = .error e w') : (m >>= f) w = .error e w' := by
  simp only [bind, EStateM.bind, h]

theorem of_bind_run_ok {b : γ} (h : (m >>= f) w = .ok b w') :
    ∃ a w₁, m w = .ok a w₁ ∧ f a w₁ = .ok b w' := by
  rcases hm : m w with ⟨a, w₁⟩ | ⟨e, w₁⟩
  · rw [bind_run_ok hm] at h
    exact ⟨a, w₁, rfl, h⟩
  · rw [bind_run_error hm] at h
    cases h

end Run

theorem bind_write_ok {w w' : List β} (h : (m >>= fun _ => m') w = .ok () w') :
    ∃ w₁, m w = .ok () w₁ ∧ m' w₁ = .ok () w' := by
  obtain ⟨_, w₁, hm, hm'⟩ := of_bind_run_ok h
  exact ⟨w₁, hm, hm'⟩

/-! ### Words -/

theorem Consumes.pure (v : α) :
    Consumes view (pure v : StateT σ (Except ε) α) [] v :=
  fun s _ h => ⟨s, rfl, h⟩

theorem Consumes.bind (hp : Consumes view p xs v) (hf : Consumes view (f v) ys u) :
    Consumes view (p >>= f) (xs ++ ys) u := by
  intro s tail h
  rw [append_assoc] at h
  obtain ⟨s₁, h₁, hv₁⟩ := hp s _ h
  obtain ⟨s₂, h₂, hv₂⟩ := hf s₁ _ hv₁
  exact ⟨s₂, by rw [bind_apply, h₁]; exact h₂, hv₂⟩

variable (g : α → γ)

theorem Consumes.map (hp : Consumes view p xs v) : Consumes view (g <$> p) xs (g v) := by
  have := Consumes.bind (f := fun u => Pure.pure (g u)) hp (Consumes.pure (g v))
  rwa [append_nil] at this

/-- After an extension of the word, exactly the excess is left. -/
theorem Consumes.leaves {u : α} (h : Consumes view p xs v) (hs : view s = xs ++ ys)
    (hp : p s = .ok (u, s')) : u = v ∧ view s' = ys := by
  obtain ⟨s₁, e₁, v₁⟩ := h s ys hs
  rw [e₁] at hp
  simp only [Except.ok.injEq, Prod.mk.injEq] at hp
  exact ⟨hp.1.symm, hp.2 ▸ v₁⟩

/-! ### Stability -/

theorem Stable.pure (v : α) : Stable view (pure v : StateT σ (Except ε) α) := by
  intro s u s' h
  cases h
  exact ⟨[], rfl, Consumes.pure v⟩

theorem Stable.throw (e : ε) : Stable view (throw e : StateT σ (Except ε) α) := by
  intro s v s' h
  cases h

theorem Stable.bind (hp : Stable view p) (hf : ∀ v, Stable view (f v)) : Stable view (p >>= f) := by
  intro s u s' h
  obtain ⟨v, s₁, h₁, h₂⟩ := bind_ok h
  obtain ⟨xs, hx, cx⟩ := hp s v s₁ h₁
  obtain ⟨ys, hy, cy⟩ := hf v s₁ u s' h₂
  exact ⟨xs ++ ys, by rw [hx, hy, append_assoc], cx.bind cy⟩

theorem Stable.map (hp : Stable view p) :
    Stable view (g <$> p) :=
  hp.bind fun v => Stable.pure (g v)

/-- Of two inputs that a stable parser reads to the end, neither is a proper
prefix of the other. -/
theorem Stable.prefix_eq (hp : Stable view p) {t t' : σ} {u : α} (hs : p s = .ok (v, s'))
    (hs' : view s' = []) (ht : p t = .ok (u, t')) (ht' : view t' = []) (hpre : view s <+: view t) :
    view s = view t := by
  obtain ⟨xs, hx, hc⟩ := hp s v s' hs
  rw [hs', append_nil] at hx
  obtain ⟨ys, hy⟩ := hpre
  rw [hx] at hy
  have hl := (hc.leaves hy.symm ht).2
  rw [hx, ← hy, ← hl, ht', append_nil]

/-- Every success of `p` reads at least one item. -/
def Advances (view : σ → List β) (p : StateT σ (Except ε) α) : Prop :=
  ∀ s v s', p s = .ok (v, s') → (view s').length < (view s).length

theorem Advances.map (hp : Advances view p) : Advances view (g <$> p) := by
  intro s v s' h
  obtain ⟨u, s₁, h₁, h₂⟩ := bind_ok (f := fun u => Pure.pure (g u)) h
  cases h₂
  exact hp s u s' h₁

/-- Every success of `p` reads `k` items. -/
def Spends (view : σ → List β) (p : StateT σ (Except ε) α) (k : ℕ) : Prop :=
  ∀ s v s', p s = .ok (v, s') → (view s).length = k + (view s').length

theorem Spends.map {k : ℕ} (hp : Spends view p k) : Spends view (g <$> p) k := by
  intro s v s' h
  obtain ⟨u, hu, -⟩ := map_ok h
  exact hp s u s' hu

/-! ### Loops -/

/-- `for _ in 0..n { out.push(p()?) }`. -/
def times (p : StateT σ (Except ε) α) : ℕ → StateT σ (Except ε) (List α)
  | 0 => pure []
  | n + 1 => do
    let v ← p
    let vs ← times p n
    pure (v :: vs)

/-- `for item in items { write(item)? }`. -/
def writeAll (write : γ → EStateM ε' (List β) Unit) : List γ → EStateM ε' (List β) Unit
  | [] => pure ()
  | x :: xs => do
    write x
    writeAll write xs

theorem Stable.times (hp : Stable view p) :
    ∀ n, Stable view (times p n)
  | 0 => Stable.pure []
  | n + 1 => hp.bind fun v => (Stable.times hp n).bind fun vs => Stable.pure (v :: vs)

theorem Advances.times (hp : Advances view p) :
    ∀ (n : ℕ) (s : σ) (vs : List α) (s' : σ), Codec.times p n s = .ok (vs, s') →
      (view s').length + n ≤ (view s).length
  | 0, s, vs, s', h => by cases h; exact Nat.le_refl _
  | n + 1, s, vs, s', h => by
    obtain ⟨v, s₁, h₁, h₂⟩ := bind_ok h
    obtain ⟨vs₁, s₂, h₃, h₄⟩ := bind_ok h₂
    cases h₄
    have hv := hp s v s₁ h₁
    have hvs := Advances.times hp n s₁ vs₁ s' h₃
    omega

theorem length_times : ∀ (n : ℕ) (s : σ) (vs : List α) (s' : σ),
    times p n s = .ok (vs, s') → vs.length = n
  | 0, s, vs, s', h => by cases h; rfl
  | n + 1, s, vs, s', h => by
    obtain ⟨v, s₁, -, h₂⟩ := bind_ok h
    obtain ⟨vs₁, s₂, h₃, h₄⟩ := bind_ok h₂
    cases h₄
    rw [length_cons, length_times n s₁ vs₁ s' h₃]

theorem writeAll_concat (write : γ → EStateM ε' (List β) Unit) (x : γ) : ∀ xs : List γ,
    writeAll write (xs ++ [x]) = (do writeAll write xs; write x)
  | [] => by simp [writeAll]
  | y :: ys => by simp [writeAll, writeAll_concat write x ys]

variable {write : γ → EStateM ε' (List β) Unit}

theorem length_writeAll {k : ℕ} (hk : ∀ x w w', write x w = .ok () w' → w'.length = w.length + k) :
    ∀ (items : List γ) (w w' : List β), writeAll write items w = .ok () w' →
      w'.length = w.length + k * items.length
  | [], w, w', h => by cases h; rfl
  | x :: xs, w, w', h => by
    obtain ⟨w₁, h₁, h₂⟩ := bind_write_ok h
    rw [length_writeAll hk xs w₁ w' h₂, hk x w w₁ h₁, length_cons, Nat.mul_succ]
    omega

/-- The writer reports no error, whatever was written before. -/
def Succeeds (m : EStateM ε' (List β) Unit) : Prop :=
  ∀ w, ∃ w', m w = .ok () w'

theorem Succeeds.andThen (h : Succeeds m) (h' : Succeeds m') : Succeeds (m >>= fun _ => m') := by
  intro w
  obtain ⟨w₁, h₁⟩ := h w
  obtain ⟨w₂, h₂⟩ := h' w₁
  exact ⟨w₂, by simp only [bind, EStateM.bind, h₁, h₂]⟩

theorem Succeeds.writeAll : ∀ items : List γ,
    (∀ x ∈ items, Succeeds (write x)) → Succeeds (writeAll write items)
  | [], _ => fun w => ⟨w, rfl⟩
  | x :: xs, h =>
    (h x (mem_cons_self ..)).andThen (Succeeds.writeAll xs fun y hy => h y (mem_cons_of_mem _ hy))

theorem RoundTrips.pure (v : α) :
    RoundTrips view (pure () : EStateM ε' (List β) Unit) (pure v : StateT σ (Except ε) α) v := by
  intro w w' h
  simp only [Pure.pure, EStateM.pure, EStateM.Result.ok.injEq, true_and] at h
  exact ⟨[], by simp [h], Consumes.pure v⟩

theorem RoundTrips.bind (h : RoundTrips view m p v) (h' : RoundTrips view m' (f v) u) :
    RoundTrips view (m >>= fun _ => m') (p >>= f) u := by
  intro w w' hw
  obtain ⟨w₁, hm, hm'⟩ := bind_write_ok hw
  obtain ⟨bs, rfl, hb⟩ := h w w₁ hm
  obtain ⟨cs, rfl, hc⟩ := h' _ w' hm'
  exact ⟨bs ++ cs, append_assoc .., hb.bind hc⟩

/-- The last step of a record codec: the encoder has nothing more to write. -/
theorem RoundTrips.andThen (h : RoundTrips view m p v) (h' : Consumes view (f v) [] u) :
    RoundTrips view m (p >>= f) u := by
  intro w w' hw
  obtain ⟨bs, hbs, hb⟩ := h w w' hw
  exact ⟨bs, hbs, append_nil bs ▸ hb.bind h'⟩

theorem RoundTrips.map (h : RoundTrips view m p v) :
    RoundTrips view m (g <$> p) (g v) :=
  RoundTrips.andThen (f := fun u => Pure.pure (g u)) h (Consumes.pure (g v))

theorem RoundTrips.writeAll {g : γ → α} :
    ∀ items : List γ, (∀ x ∈ items, RoundTrips view (write x) p (g x)) →
    RoundTrips view (writeAll write items) (Codec.times p items.length) (items.map g)
  | [], _ => RoundTrips.pure []
  | x :: xs, h => by
    have hx := h x (mem_cons_self ..)
    have hxs := RoundTrips.writeAll xs fun y hy => h y (mem_cons_of_mem _ hy)
    exact hx.bind (hxs.map (g x :: ·))

/-- Appends a given word. -/
def put (xs : List β) : EStateM ε' (List β) Unit := fun w => .ok () (w ++ xs)

theorem RoundTrips.put (h : Consumes view p xs v) :
    RoundTrips view (put xs : EStateM ε' (List β) Unit) p v := by
  intro w w' hw
  cases hw
  exact ⟨xs, rfl, h⟩

theorem RoundTrips.consumes (h : RoundTrips view m p v) (hm : m [] = .ok () xs) :
    Consumes view p xs v := by
  obtain ⟨ys, hy, hc⟩ := h [] xs hm
  exact hy ▸ hc

/-! ### Reading to the end

The last field of a packet may take whatever is left, so it has no word of
its own: it is read back only when nothing follows it. -/

/-- `p` reads an input that is exactly `xs` to its end and returns `v`. -/
def Exhausts (view : σ → List β) (p : StateT σ (Except ε) α) (xs : List β) (v : α) : Prop :=
  ∀ s, view s = xs → ∃ s', p s = .ok (v, s') ∧ view s' = []

/-- What `m` appends when it succeeds is an input that `p` reads to its end
with result `v`. -/
def RoundTripsToEnd (view : σ → List β) (m : EStateM ε' (List β) Unit)
    (p : StateT σ (Except ε) α) (v : α) : Prop :=
  ∀ w w', m w = .ok () w' → ∃ bs, w' = w ++ bs ∧ Exhausts view p bs v

theorem Consumes.exhausts (h : Consumes view p xs v) : Exhausts view p xs v :=
  fun s hs => h s [] (by rw [hs, append_nil])

theorem Consumes.bindToEnd (hp : Consumes view p xs v) (hf : Exhausts view (f v) ys u) :
    Exhausts view (p >>= f) (xs ++ ys) u := by
  intro s h
  obtain ⟨s₁, h₁, hv₁⟩ := hp s _ h
  obtain ⟨s₂, h₂, hv₂⟩ := hf s₁ hv₁
  exact ⟨s₂, by rw [bind_apply, h₁]; exact h₂, hv₂⟩

theorem RoundTrips.toEnd (h : RoundTrips view m p v) : RoundTripsToEnd view m p v := by
  intro w w' hw
  obtain ⟨bs, hbs, hb⟩ := h w w' hw
  exact ⟨bs, hbs, hb.exhausts⟩

theorem RoundTrips.bindToEnd (h : RoundTrips view m p v) (h' : RoundTripsToEnd view m' (f v) u) :
    RoundTripsToEnd view (m >>= fun _ => m') (p >>= f) u := by
  intro w w' hw
  obtain ⟨w₁, hm, hm'⟩ := bind_write_ok hw
  obtain ⟨bs, rfl, hb⟩ := h w w₁ hm
  obtain ⟨cs, rfl, hc⟩ := h' _ w' hm'
  exact ⟨bs ++ cs, append_assoc .., hb.bindToEnd hc⟩

theorem RoundTripsToEnd.andThen (h : RoundTripsToEnd view m p v) (h' : Exhausts view (f v) [] u) :
    RoundTripsToEnd view m (p >>= f) u := by
  intro w w' hw
  obtain ⟨bs, hbs, hb⟩ := h w w' hw
  refine ⟨bs, hbs, fun s hs => ?_⟩
  obtain ⟨s₁, h₁, hv₁⟩ := hb s hs
  obtain ⟨s₂, h₂, hv₂⟩ := h' s₁ hv₁
  exact ⟨s₂, by rw [bind_apply, h₁]; exact h₂, hv₂⟩

theorem RoundTripsToEnd.map (h : RoundTripsToEnd view m p v) :
    RoundTripsToEnd view m (g <$> p) (g v) :=
  RoundTripsToEnd.andThen (f := fun u => Pure.pure (g u)) h (Consumes.pure (g v)).exhausts

/-! ### Exact encodings -/

/-- `decode` accepts `xs` with result `v`, and no proper prefix and no proper
extension of `xs` with any result. -/
def Exact (decode : List β → Except ε α) (xs : List β) (v : α) : Prop :=
  decode xs = .ok v ∧ (∀ ys, ys <+: xs → ys ≠ xs → ∃ e, decode ys = .error e) ∧
    ∀ ys, xs <+: ys → ys ≠ xs → ∃ e, decode ys = .error e

/-- No accepted input is a proper prefix of another. -/
def PrefixFree (decode : List β → Except ε α) : Prop :=
  ∀ ⦃xs ys : List β⦄ ⦃v u : α⦄, xs <+: ys → decode xs = .ok v → decode ys = .ok u → xs = ys

theorem Exact.of_prefixFree {decode : List β → Except ε α} (hd : PrefixFree decode)
    (h : decode xs = .ok v) : Exact decode xs v := by
  refine ⟨h, fun ys hpre hne => ?_, fun ys hext hne => ?_⟩
  · cases hy : decode ys with
    | error e => exact ⟨e, rfl⟩
    | ok u => exact absurd (hd hpre hy h) hne
  · cases hy : decode ys with
    | error e => exact ⟨e, rfl⟩
    | ok u => exact absurd (hd hext h hy).symm hne

end Ptpsim.Codec
