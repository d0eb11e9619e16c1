import Hydra.Lib.ByteMem
import Hydra.Lib.Numeral

/-!
# The kernel's console

`kernal/printk.c` and the transmit side of `kernal/uart.c`: the bytes that go to the transmit
register, in order. Waiting for the register to be empty has no effect on them.

A C string is its bytes up to the terminator. The variable arguments are 64-bit words, the ones that
the caller passed and then whatever follows them in the registers and on the stack.
-/

namespace Hydra.Kernel
open ByteMem Numeral

/-- What pointers lead to: the C string at every address, and the bytes around the digit literal of
`itoa`, by their offset from its beginning. -/
structure Memory where
  string : UInt64 → List UInt8
  rodata : Int → UInt8

/-- The variable arguments from the next one on. -/
abbrev VaList := Nat → UInt64

/-- `va_arg(args, int)` for the word of the argument. -/
def intArg (word : UInt64) : Int := toInt32 (word.toNat % 2 ^ 32)

/-- The arguments behind the next one. -/
def VaList.rest (args : VaList) : VaList := fun i => args (i + 1)

/-- C `uart_putc`. -/
def uartPutc (c : UInt8) : List UInt8 := if c = chr '\n' then [c, chr '\r'] else [c]

/-- C `uart_puts`. -/
def uartPuts (s : List UInt8) : List UInt8 := s.flatMap uartPutc

/-- The digit loop of `print_num`: the contents of its buffer, for `n` rounds at most. -/
def numDigits (base : Nat) : Nat → Nat → List UInt8
  | 0, _ => []
  | n + 1, num => if num = 0 then [] else digitChar (num % base) :: numDigits base n (num / base)

/-- C `print_num`. -/
def printNum (num base : Nat) : List UInt8 :=
  if num = 0 then uartPutc (chr '0')
  else ((numDigits base num num).reverse).flatMap uartPutc

/-- C `printk`; nothing if the format ends in the middle of a conversion, since the pointer is then
moved past the terminator. -/
def printk (mem : Memory) : List UInt8 → VaList → Option (List UInt8)
  | [], _ => some []
  | c :: fmt, args =>
    if c ≠ chr '%' then (printk mem fmt args).map (uartPutc c ++ ·)
    else
      match fmt with
      | [] => none
      | f :: fmt =>
        if f = chr 'c' then
          (printk mem fmt args.rest).map (uartPutc (UInt8.ofNat (args 0).toNat) ++ ·)
        else if f = chr 's' then
          (printk mem fmt args.rest).map (uartPuts (mem.string (args 0)) ++ ·)
        else if f = chr 'd' ∨ f = chr 'i' then
          -- the `int` is converted to `unsigned long`
          (printk mem fmt args.rest).map (printNum (intArg (args 0) % 2 ^ 64).toNat 10 ++ ·)
        else if f = chr 'x' then
          (printk mem fmt args.rest).map (printNum ((args 0).toNat % 2 ^ 32) 16 ++ ·)
        else if f = chr 'l' then
          match fmt with
          | [] => none
          | g :: fmt =>
            if g = chr 'x' then (printk mem fmt args.rest).map (printNum (args 0).toNat 16 ++ ·)
            else if g = chr 'd' then
              (printk mem fmt args.rest).map (printNum (args 0).toNat 10 ++ ·)
            else
              (printk mem fmt args).map (uartPutc (chr '%') ++ uartPutc (chr 'l') ++ uartPutc g ++ ·)
        else if f = chr '%' then (printk mem fmt args).map (uartPutc (chr '%') ++ ·)
        else (printk mem fmt args).map (uartPutc (chr '%') ++ uartPutc f ++ ·)

end Hydra.Kernel
