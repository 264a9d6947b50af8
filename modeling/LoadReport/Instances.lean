/-!
# Powers and sums

Powers with whole exponents and sums of lists are those of the core library.
Where more algebra is in scope there are further instances of the same
operations, and the priorities below leave the choice as it is without them:
a definition is the same term whatever is imported beside it, and it
evaluates.
-/

attribute [instance (high)] instPowNat Zero.ofOfNat0

attribute [default_instance 20000] instPowNat
