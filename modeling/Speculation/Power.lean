/-!
# Powers

Powers of numbers are those of the core library, also where an algebraic structure offers others:
`2 ^ 31` is the same term in every module.
-/

attribute [default_instance 20000,
instance 2000] instPowNat
