-- Powers are those of the core library, also in modules that import the powers of monoids.
attribute [instance (high), default_instance (high + 1)] instPowNat
