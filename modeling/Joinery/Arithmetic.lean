/-!
Powers and sums of whole numbers are those of the core library, also where algebra gives them other
instances: a definition says the same to the program and to its theory.
-/

attribute [instance (high), default_instance (high + 1)] instPowNat
attribute [instance (high)] Zero.ofOfNat0
